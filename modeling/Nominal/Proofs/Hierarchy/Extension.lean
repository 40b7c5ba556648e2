import Nominal.Proofs.Hierarchy.Changes

/-!
# How a type system grows

A change never takes a class away, and what it does to a class can be said class by class:
`TypeSystem.Evolves R` carries a relation `R` between the definitions of a class before and after
over to whole type systems. Two such relations:

* `ClassDef.GrowsTo` — methods keep their signatures, and supertypes are only added at the end;
* `ClassDef.Extends` — besides, the constructor takes the same parameters.

A history of changes evolves a type system as its changes evolve single classes (`evolves_run`). So
every history lets the classes grow (`grows_run`), and one that declares no constructor extends the
type system (`extends_run`).
-/

namespace Nominal

/-! ## One class -/

/-- `c.GrowsTo c'`: whatever the class `c` declares, `c'` declares in the same way. -/
structure ClassDef.GrowsTo (c c' : ClassDef) : Prop where
  methods : ∀ name m, c.method? name = some m → c'.method? name = some m
  supertypes : c.supertypes <+: c'.supertypes

/-- `c.Extends c'`: the class grows, and is constructed as before. -/
structure ClassDef.Extends (c c' : ClassDef) : Prop extends c.GrowsTo c' where
  constructorParams : c'.constructorParams = c.constructorParams

namespace ClassDef

theorem GrowsTo.refl (c : ClassDef) : c.GrowsTo c :=
  ⟨fun _ _ h => h, List.prefix_refl _⟩

theorem GrowsTo.trans {c c' c'' : ClassDef} (h : c.GrowsTo c') (h' : c'.GrowsTo c'') :
    c.GrowsTo c'' := by
  refine ⟨?_, h.supertypes.trans h'.supertypes⟩
  intro name m hm
  exact h'.methods name m (h.methods name m hm)

theorem Extends.refl (c : ClassDef) : c.Extends c := ⟨.refl c, rfl⟩

theorem Extends.trans {c c' c'' : ClassDef} (h : c.Extends c') (h' : c'.Extends c'') :
    c.Extends c'' :=
  ⟨h.toGrowsTo.trans h'.toGrowsTo, h'.constructorParams.trans h.constructorParams⟩

/-- Adding a supertype leaves everything else alone. -/
theorem extends_addSupertype (c : ClassDef) (supertype : ClassId) :
    c.Extends (c.addSupertype supertype) := by
  refine ⟨⟨?_, ?_⟩, ?_⟩
  · intro name m hm
    rwa [method?_addSupertype]
  · unfold addSupertype
    split
    · exact List.prefix_refl _
    · exact List.prefix_append _ _
  · unfold addSupertype
    split <;> rfl

/-- A method that is added has a new name, so no signature changes. -/
theorem extends_addMethod {c c' : ClassDef} {m : Method} (h : c.addMethod m = .ok c') :
    c.Extends c' := by
  rcases addMethod_eq_ok_iff.1 h with ⟨hnew, rfl⟩
  refine ⟨⟨?_, List.prefix_refl _⟩, rfl⟩
  intro name m' hm'
  rw [method?_addMethod h]
  have hname : name ≠ m.name := by
    intro hname
    rw [hname, hnew] at hm'
    cases hm'
  rwa [if_neg hname]

theorem extends_rename (c : ClassDef) (name : Symbol) : c.Extends (c.rename name) :=
  ⟨⟨fun _ _ h => h, List.prefix_refl _⟩, rfl⟩

end ClassDef

/-! ## All classes -/

namespace TypeSystem

/-- `ts.Evolves R ts'`: no class of `ts` is missing in `ts'`, and `R` relates the definitions that
it has in the two. -/
def Evolves (R : ClassDef → ClassDef → Prop) (ts ts' : TypeSystem) : Prop :=
  ∀ id c, ts.class? id = some c → ∃ c', ts'.class? id = some c' ∧ R c c'

variable {R : ClassDef → ClassDef → Prop} {ts ts' : TypeSystem}

theorem Evolves.refl (hrefl : ∀ c, R c c) (ts : TypeSystem) : ts.Evolves R ts :=
  fun _ c hc => ⟨c, hc, hrefl c⟩

theorem Evolves.trans {ts'' : TypeSystem} (h : ts.Evolves R ts') (h' : ts'.Evolves R ts'')
    (htrans : ∀ c c' c'', R c c' → R c' c'' → R c c'') : ts.Evolves R ts'' := by
  intro id c hc
  rcases h id c hc with ⟨c', hc', hR⟩
  rcases h' id c' hc' with ⟨c'', hc'', hR'⟩
  exact ⟨c'', hc'', htrans c c' c'' hR hR'⟩

/-- A new class stands under an id that no other class has. -/
theorem evolves_addClass (hrefl : ∀ c, R c c) {id : ClassId} {c : ClassDef}
    (h : ts.addClass c = .ok (id, ts')) : ts.Evolves R ts' := by
  intro id' d hd
  refine ⟨d, ?_, hrefl d⟩
  rcases addClass_eq_ok_iff.1 h with ⟨_, hnew, hid, _⟩
  have hne : id' ≠ id := by
    intro heq
    rw [heq, hid, hnew] at hd
    cases hd
  rwa [class?_addClass h, if_neg hne]

/-- A change of one class evolves the type system as it evolves the class. -/
theorem evolves_update (hrefl : ∀ c, R c c) {id : ClassId}
    {change : ClassDef → Except HierarchyError ClassDef}
    (hchange : ∀ c c', change c = .ok c' → R c c') (h : ts.update id change = .ok ts') :
    ts.Evolves R ts' := by
  rcases update_eq_ok_iff.1 h with ⟨d, d', hd, hd', rfl⟩
  intro id' c hc
  rw [class?_replace]
  by_cases hid : id' = id
  · rw [hid, hd] at hc
    rcases Option.some.inj hc with rfl
    exact ⟨d', by simp [hid, hd], hchange d d' hd'⟩
  · exact ⟨c, by simpa [hid] using hc, hrefl c⟩

end TypeSystem

/-! ## Histories -/

namespace Edit

variable {R : ClassDef → ClassDef → Prop} {ts ts' : TypeSystem} {edit : Edit}

/-- A change evolves the type system as it evolves the definition of its target. -/
theorem evolves_of_apply (hrefl : ∀ c, R c c) (hchange : ∀ c c', edit.change c = .ok c' → R c c')
    (h : edit.apply ts = .ok ts') : ts.Evolves R ts' := by
  rcases apply_cases h with ⟨c, -, hadd⟩ | ⟨id, -, hupdate⟩
  · exact TypeSystem.evolves_addClass hrefl hadd
  · exact TypeSystem.evolves_update hrefl hchange hupdate

/-- A change that is refused leaves the type system as it was. -/
theorem evolves_step (hrefl : ∀ c, R c c) (hchange : ∀ c c', edit.change c = .ok c' → R c c')
    (ts : TypeSystem) : ts.Evolves R (edit.step ts) := by
  cases h : edit.apply ts with
  | ok ts' =>
      rw [step_of_apply_eq_ok h]
      exact evolves_of_apply hrefl hchange h
  | error err =>
      rw [step_of_apply_eq_error h]
      exact .refl hrefl ts

/-- A history evolves the type system that it begins with as each of its changes does. -/
theorem evolves_run (hrefl : ∀ c, R c c) (htrans : ∀ c c' c'', R c c' → R c' c'' → R c c'')
    {history : List Edit} (hchange : ∀ edit ∈ history, ∀ c c', edit.change c = .ok c' → R c c')
    (ts : TypeSystem) : ts.Evolves R (run ts history) := by
  induction history generalizing ts with
  | nil => exact .refl hrefl ts
  | cons edit history ih =>
      rcases List.forall_mem_cons.1 hchange with ⟨hedit, hrest⟩
      have hstep : ts.Evolves R (edit.step ts) := evolves_step hrefl hedit ts
      exact hstep.trans (ih hrest (edit.step ts)) htrans

/-- Whether a change leaves the declared constructors alone. -/
def KeepsConstructors : Edit → Prop
  | .setConstructor .. => False
  | .addClass .. | .addSupertype .. | .addMethod .. | .rename .. => True

theorem extends_of_change {c c' : ClassDef} (hkeeps : edit.KeepsConstructors)
    (h : edit.change c = .ok c') : c.Extends c' := by
  cases edit with
  | addClass d =>
      rcases Except.ok.inj h with rfl
      exact .refl c
  | addSupertype target supertype =>
      rcases Except.ok.inj h with rfl
      exact c.extends_addSupertype supertype
  | setConstructor target params => exact hkeeps.elim
  | addMethod target m => exact ClassDef.extends_addMethod h
  | rename target name =>
      rcases Except.ok.inj h with rfl
      exact c.extends_rename name

/-- Even where it declares a constructor, a change lets the class grow. -/
theorem growsTo_of_change {c c' : ClassDef} (h : edit.change c = .ok c') : c.GrowsTo c' := by
  cases edit with
  | setConstructor target params =>
      rcases Except.ok.inj h with rfl
      exact ⟨fun _ _ hm => hm, List.prefix_refl _⟩
  | _ => exact (extends_of_change (by trivial) h).toGrowsTo

/-- A history without declared constructors extends the type system it begins with. -/
theorem extends_run {history : List Edit} (hkeeps : ∀ edit ∈ history, edit.KeepsConstructors)
    (ts : TypeSystem) : ts.Evolves ClassDef.Extends (run ts history) :=
  evolves_run ClassDef.Extends.refl (fun _ _ _ h h' => h.trans h')
    (fun edit hedit _ _ h => extends_of_change (hkeeps edit hedit) h) ts

/-- Every history lets the classes that it begins with grow. -/
theorem grows_run (history : List Edit) (ts : TypeSystem) :
    ts.Evolves ClassDef.GrowsTo (run ts history) :=
  evolves_run ClassDef.GrowsTo.refl (fun _ _ _ h h' => h.trans h')
    (fun _ _ _ _ h => growsTo_of_change h) ts

end Edit
end Nominal
