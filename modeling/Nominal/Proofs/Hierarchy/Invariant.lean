import Nominal.Proofs.Declaration.Acceptance
import Nominal.Proofs.Hierarchy.Extension

/-!
# The representation invariant

What holds of every type system that was made from the empty one by changes, whichever ids and
names the changes were given:

* `TypeSystem.WellFormed` — no class has a reserved name, no supertype is listed twice, and every
  method is found under its own name;
* an id that was issued stays an id, and the class behind it only grows (`Edit.grows_run`).

Several type systems may exist side by side and ids may cross between them (`SystemEdit`). That
does no harm: each type system sees its own changes only (`SystemEdit.run_apply`), and a change
of an id that it did not issue is refused.

Main statement: `wellFormed_run_and_growsTo_run`.
-/

namespace Nominal

/-! ## One class -/

namespace ClassDef

/-- `c.Made`: the definition was made from a fresh one by the changes that a definition allows. -/
inductive Made : ClassDef → Prop where
  | fresh (name : Symbol) : Made (.fresh name)
  | addSupertype {c : ClassDef} (supertype : ClassId) : Made c → Made (c.addSupertype supertype)
  | setConstructor {c : ClassDef} (params : List Ty) : Made c → Made (c.setConstructor params)
  | addMethod {c c' : ClassDef} {m : Method} : Made c → c.addMethod m = .ok c' → Made c'
  | rename {c : ClassDef} (name : Symbol) : Made c → Made (c.rename name)

/-- `c.WellFormed`: the class lists no supertype twice, and holds every method under its name. -/
structure WellFormed (c : ClassDef) : Prop where
  supertypes_nodup : c.supertypes.Nodup
  method?_eq_some_iff : ∀ name m, c.method? name = some m ↔ m ∈ c.methods ∧ m.name = name

variable {c c' : ClassDef}

theorem wellFormed_fresh (name : Symbol) : (fresh name).WellFormed := by
  constructor
  · exact List.nodup_nil
  · intro name m
    simp [fresh, method?]

theorem WellFormed.addSupertype (h : c.WellFormed) (supertype : ClassId) :
    (c.addSupertype supertype).WellFormed := by
  unfold ClassDef.addSupertype
  split
  · -- The supertype is listed already, and the definition stays as it is.
    exact h
  · -- It is new, and stands at the end.
    rename_i hnew
    refine ⟨?_, h.method?_eq_some_iff⟩
    rw [List.nodup_append]
    refine ⟨h.supertypes_nodup, List.nodup_cons.2 ⟨List.not_mem_nil, List.nodup_nil⟩, ?_⟩
    intro other hother added hadded
    rw [List.mem_singleton.1 hadded]
    rintro rfl
    exact hnew hother

/-- A method is only added under a name that none of the others has. -/
theorem WellFormed.addMethod {m : Method} (h : c.WellFormed) (hadd : c.addMethod m = .ok c') :
    c'.WellFormed := by
  rcases addMethod_eq_ok_iff.1 hadd with ⟨hnew, hc'⟩
  have hmethods : c'.methods = c.methods ++ [m] := by rw [hc']
  constructor
  · rw [hc']
    exact h.supertypes_nodup
  · intro name found
    rw [method?_addMethod hadd, hmethods, List.mem_append, List.mem_singleton]
    by_cases hname : name = m.name
    · -- Under the new name the new method is found, as no other one has that name.
      rw [if_pos hname, Option.some.injEq]
      constructor
      · rintro rfl
        exact ⟨.inr rfl, hname.symm⟩
      · rintro ⟨hmem | heq, hfound⟩
        · have hold := (h.method?_eq_some_iff m.name found).2 ⟨hmem, hfound.trans hname⟩
          rw [hnew] at hold
          cases hold
        · exact heq.symm
    · -- Under another name nothing changes.
      rw [if_neg hname, h.method?_eq_some_iff]
      constructor
      · rintro ⟨hmem, hfound⟩
        exact ⟨.inl hmem, hfound⟩
      · rintro ⟨hmem | rfl, hfound⟩
        · exact ⟨hmem, hfound⟩
        · exact absurd hfound.symm hname

/-- Every change of a definition keeps it well-formed. -/
theorem WellFormed.change {edit : Edit} (h : c.WellFormed) (hchange : edit.change c = .ok c') :
    c'.WellFormed := by
  cases edit with
  | addMethod target m => exact h.addMethod hchange
  | addSupertype target supertype =>
      rcases Except.ok.inj hchange with rfl
      exact h.addSupertype supertype
  | addClass d =>
      rcases Except.ok.inj hchange with rfl
      exact h
  | setConstructor target params =>
      rcases Except.ok.inj hchange with rfl
      exact ⟨h.supertypes_nodup, h.method?_eq_some_iff⟩
  | rename target name =>
      rcases Except.ok.inj hchange with rfl
      exact ⟨h.supertypes_nodup, h.method?_eq_some_iff⟩

theorem Made.wellFormed (h : c.Made) : c.WellFormed := by
  induction h with
  | fresh name => exact wellFormed_fresh name
  | addSupertype supertype _ ih => exact ih.addSupertype supertype
  | setConstructor params _ ih => exact ⟨ih.supertypes_nodup, ih.method?_eq_some_iff⟩
  | addMethod _ hadd ih => exact ih.addMethod hadd
  | rename name _ ih => exact ⟨ih.supertypes_nodup, ih.method?_eq_some_iff⟩

end ClassDef

/-! ## One type system -/

/-- `ts.WellFormed`: every id stands for one class, no class is declared under a reserved name, and
every definition is well-formed. -/
structure TypeSystem.WellFormed (ts : TypeSystem) : Prop where
  ids_nodup : ts.ids.Nodup
  unreserved : ∀ id ∈ ts.ids, id.key.text ∉ reservedNames
  classes : ∀ id c, ts.class? id = some c → c.WellFormed

namespace TypeSystem

variable {ts ts' : TypeSystem} {id : ClassId} {c : ClassDef}

theorem wellFormed_empty : empty.WellFormed := by
  constructor
  · exact List.nodup_nil
  · intro id hid
    cases hid
  · intro id c hc
    cases hc

theorem WellFormed.addClass (h : ts.WellFormed) (hc : c.WellFormed)
    (hadd : ts.addClass c = .ok (id, ts')) : ts'.WellFormed := by
  rcases addClass_eq_ok_iff.1 hadd with ⟨hreserved, hnew, hid, -⟩
  have hids : ts'.ids = ts.ids ++ [id] := ids_addClass hadd
  have hid' : id ∉ ts.ids := by
    rw [hid, ← class?_eq_none_iff]
    exact hnew
  refine ⟨?_, ?_, ?_⟩
  · -- The id of the class is new: the symbol had no class before.
    rw [hids, List.nodup_append]
    refine ⟨h.ids_nodup, List.nodup_cons.2 ⟨List.not_mem_nil, List.nodup_nil⟩, ?_⟩
    intro other hother added hadded
    rw [List.mem_singleton.1 hadded]
    rintro rfl
    exact hid' hother
  · intro other hother
    rw [hids, List.mem_append, List.mem_singleton] at hother
    rcases hother with hother | rfl
    · exact h.unreserved other hother
    · rw [hid, ← isReserved_iff, Bool.not_eq_true]
      exact hreserved
  · intro other d hd
    rw [class?_addClass hadd] at hd
    split at hd
    · exact Option.some.inj hd ▸ hc
    · exact h.classes other d hd

/-- Changing a definition leaves the ids as they are. -/
theorem WellFormed.update (h : ts.WellFormed) {change : ClassDef → Except HierarchyError ClassDef}
    (hchange : ∀ d d', d.WellFormed → change d = .ok d' → d'.WellFormed)
    (hupdate : ts.update id change = .ok ts') : ts'.WellFormed := by
  rcases update_eq_ok_iff.1 hupdate with ⟨d, d', hd, hd', rfl⟩
  refine ⟨?_, ?_, ?_⟩
  · rw [ids_replace]
    exact h.ids_nodup
  · rw [ids_replace]
    exact h.unreserved
  · intro other c hc
    rw [class?_replace] at hc
    split at hc
    · rw [hd] at hc
      have hc' : d' = c := Option.some.inj hc
      exact hc' ▸ hchange d d' (h.classes id d hd) hd'
    · exact h.classes other c hc

end TypeSystem

/-! ## Histories -/

namespace Edit

/-- A class that a change adds was made by changes itself. -/
def AddsMade : Edit → Prop
  | .addClass c => c.Made
  | .addSupertype .. | .setConstructor .. | .addMethod .. | .rename .. => True

variable {ts : TypeSystem} {edit : Edit}

theorem wellFormed_step (hmade : edit.AddsMade) (h : ts.WellFormed) : (edit.step ts).WellFormed := by
  cases happly : edit.apply ts with
  | error err =>
      rw [step_of_apply_eq_error happly]
      exact h
  | ok ts' =>
      rw [step_of_apply_eq_ok happly]
      rcases apply_cases happly with ⟨c, rfl, hadd⟩ | ⟨id, -, hupdate⟩
      · have hc : c.Made := hmade
        exact h.addClass hc.wellFormed hadd
      · exact h.update (fun _ _ hd hchange => hd.change hchange) hupdate

theorem wellFormed_run {history : List Edit} (hmade : ∀ edit ∈ history, edit.AddsMade)
    (h : ts.WellFormed) : (run ts history).WellFormed := by
  induction history generalizing ts with
  | nil => exact h
  | cons edit history ih =>
      rcases List.forall_mem_cons.1 hmade with ⟨hedit, hrest⟩
      exact ih hrest (wellFormed_step hedit h)

/-- A change fails for want of a class exactly if it is to change a class that is not there. -/
theorem apply_eq_danglingId_iff :
    edit.apply ts = .error .danglingId ↔ ∃ id, edit.target? = some id ∧ id ∉ ts.ids := by
  rw [apply_eq_error_iff]
  simp

end Edit

/-! ## Several type systems -/

/-- A change to one of several type systems. -/
structure SystemEdit where
  /-- The number of the type system. -/
  system : Nat
  edit : Edit

namespace SystemEdit

/-- The type systems after a change to one of them. -/
def step (systems : Nat → TypeSystem) (op : SystemEdit) : Nat → TypeSystem :=
  fun i => if i = op.system then op.edit.step (systems i) else systems i

/-- The type systems after a history of changes. -/
def run (systems : Nat → TypeSystem) (history : List SystemEdit) : Nat → TypeSystem :=
  history.foldl step systems

/-- The changes to the type system numbered `i`. -/
def editsOf (i : Nat) (history : List SystemEdit) : List Edit :=
  (history.filter fun op => i = op.system).map (·.edit)

theorem editsOf_append (i : Nat) (before after : List SystemEdit) :
    editsOf i (before ++ after) = editsOf i before ++ editsOf i after := by
  simp [editsOf]

/-- A type system is changed by its own changes only. -/
theorem run_apply (systems : Nat → TypeSystem) (history : List SystemEdit) (i : Nat) :
    run systems history i = Edit.run (systems i) (editsOf i history) := by
  induction history generalizing systems with
  | nil => rfl
  | cons op history ih =>
      have hstep : run systems (op :: history) i = run (step systems op) history i := rfl
      rw [hstep, ih]
      -- The change is the first of the changes to `i`, or it is none of them.
      by_cases hi : i = op.system <;> simp [step, editsOf, hi, Edit.run]

/-- The type systems that a history reaches, all of them empty at first. -/
def reached (history : List SystemEdit) : Nat → TypeSystem := run (fun _ => .empty) history

/-- What is reached later is reached from what was reached before. -/
theorem reached_append (before after : List SystemEdit) (i : Nat) :
    reached (before ++ after) i = Edit.run (reached before i) (editsOf i after) := by
  unfold reached
  rw [run_apply, run_apply, editsOf_append, Edit.run, List.foldl_append]
  rfl

theorem reached_append_cons (before after : List SystemEdit) (i : Nat) (edit : Edit) :
    reached (before ++ ⟨i, edit⟩ :: after) i =
      Edit.run (edit.step (reached before i)) (editsOf i after) := by
  rw [reached_append]
  simp [editsOf, Edit.run]

theorem wellFormed_reached {history : List SystemEdit}
    (hmade : ∀ op ∈ history, op.edit.AddsMade) (i : Nat) : (reached history i).WellFormed := by
  have hedits : ∀ edit ∈ editsOf i history, edit.AddsMade := by
    intro edit hedit
    rcases List.mem_map.1 hedit with ⟨op, hop, rfl⟩
    exact hmade op (List.mem_filter.1 hop).1
  unfold reached
  rw [run_apply]
  exact Edit.wellFormed_run hedits TypeSystem.wellFormed_empty

end SystemEdit

/-! ## Building -/

/-- No step of a building is refused for want of a class. -/
theorem BuildStep.violation_ne_danglingId (declared : List String) (step : BuildStep) :
    step.violation declared ≠ some .danglingId := by
  cases step with
  | intern name => simp [violation]
  | className earlier name =>
      simp only [violation]
      split
      · simp
      · split <;> simp
  | supertype owner name =>
      simp only [violation]
      split
      · simp
      · split <;> simp
  | typeName name =>
      simp only [violation]
      split <;> simp
  | methodName owner earlier name =>
      simp only [violation]
      split <;> simp

/-- The ids that the first pass of a building issues are all there in the second one. -/
theorem HierarchyDecl.build_ne_danglingId (d : HierarchyDecl) (table : StringTable) :
    (d.build table).1 ≠ .error .danglingId := by
  rw [d.build_fst table, ne_eq, verdict_eq_error_iff]
  intro hfirst
  rcases List.exists_of_findSome?_eq_some hfirst with ⟨step, -, hstep⟩
  exact step.violation_ne_danglingId d.classNames hstep

/-! ## Every reachable state -/

section Reached

variable {before : List SystemEdit} {i : Nat} {ts : TypeSystem}

/-- An id that was issued stands for a class from then on. -/
theorem mem_ids_of_addClass {c : ClassDef} {id : ClassId}
    (h : (SystemEdit.reached before i).addClass c = .ok (id, ts)) (after : List SystemEdit) :
    id ∈ (SystemEdit.reached (before ++ ⟨i, .addClass c⟩ :: after) i).ids := by
  have hid : id = ⟨c.name⟩ := (TypeSystem.addClass_eq_ok_iff.1 h).2.2.1
  have hstep : (Edit.addClass c).step (SystemEdit.reached before i) = ts :=
    Edit.step_of_apply_eq_ok (Edit.apply_addClass_eq_ok_iff.2 (hid ▸ h))
  have hc : ts.class? id = some c := by
    rw [TypeSystem.class?_addClass h, if_pos rfl]
  rcases Edit.grows_run (SystemEdit.editsOf i after) ts id c hc with ⟨c', hc', -⟩
  rw [SystemEdit.reached_append_cons, hstep]
  exact TypeSystem.mem_ids_iff.2 ⟨c', hc'⟩

/-- A method that was added is found with its signature from then on. -/
theorem method?_of_addMethod {id : ClassId} {m : Method}
    (h : (Edit.addMethod id m).apply (SystemEdit.reached before i) = .ok ts)
    (after : List SystemEdit) :
    (SystemEdit.reached (before ++ ⟨i, .addMethod id m⟩ :: after) i).method? (.cls id) m.name =
      some m := by
  rw [SystemEdit.reached_append_cons, Edit.step_of_apply_eq_ok h]
  rcases TypeSystem.update_eq_ok_iff.1 h with ⟨d, d', hd, hadd, rfl⟩
  generalize SystemEdit.reached before i = system at *
  have hd' : (system.replace id d').class? id = some d' := by
    simp [TypeSystem.class?_replace, hd]
  have hm : d'.method? m.name = some m := by
    rw [ClassDef.method?_addMethod hadd, if_pos rfl]
  rcases Edit.grows_run (SystemEdit.editsOf i after) _ id d' hd' with ⟨c, hc, hgrows⟩
  simp [TypeSystem.method?, TypeSystem.resolve?, hc, hgrows.methods m.name m hm]

end Reached

/-- Every type system that is reached is well-formed, and refuses a change for want of a class
exactly if the change is to a class whose id it does not hold. Whatever happens later, an id that
it issued stays an id, a method keeps the signature that it was added with, and every class grows.
A building never comes upon an id without a class. -/
theorem wellFormed_run_and_growsTo_run (before : List SystemEdit)
    (hmade : ∀ op ∈ before, op.edit.AddsMade) (i : Nat) :
    (SystemEdit.reached before i).WellFormed ∧
      (∀ edit : Edit, edit.apply (SystemEdit.reached before i) = .error .danglingId ↔
        ∃ id, edit.target? = some id ∧ id ∉ (SystemEdit.reached before i).ids) ∧
      (∀ after,
        (∀ c id ts, (SystemEdit.reached before i).addClass c = .ok (id, ts) →
          id ∈ (SystemEdit.reached (before ++ ⟨i, .addClass c⟩ :: after) i).ids) ∧
        (∀ id m ts, (Edit.addMethod id m).apply (SystemEdit.reached before i) = .ok ts →
          (SystemEdit.reached (before ++ ⟨i, .addMethod id m⟩ :: after) i).method? (.cls id) m.name =
            some m) ∧
        (SystemEdit.reached before i).Evolves ClassDef.GrowsTo
          (SystemEdit.reached (before ++ after) i)) ∧
      ∀ (d : HierarchyDecl) (table : StringTable), (d.build table).1 ≠ .error .danglingId := by
  refine ⟨SystemEdit.wellFormed_reached hmade i, ?_, ?_, HierarchyDecl.build_ne_danglingId⟩
  · intro edit
    exact Edit.apply_eq_danglingId_iff
  · intro after
    refine ⟨?_, ?_, ?_⟩
    · intro c id ts h
      exact mem_ids_of_addClass h after
    · intro id m ts h
      exact method?_of_addMethod h after
    · rw [SystemEdit.reached_append]
      exact Edit.grows_run (SystemEdit.editsOf i after) (SystemEdit.reached before i)

/-! ### Two type systems with a class `A` each -/

/-- The first type system lists the `A` of the second one twice among the supertypes of its own,
calls its own `A` like a builtin type, and tries to rename the other. -/
def crossing : List SystemEdit :=
  [⟨0, .addClass (.fresh ⟨0, "A"⟩)⟩, ⟨1, .addClass (.fresh ⟨1, "A"⟩)⟩,
    ⟨0, .addSupertype ⟨⟨0, "A"⟩⟩ ⟨⟨1, "A"⟩⟩⟩, ⟨0, .addSupertype ⟨⟨0, "A"⟩⟩ ⟨⟨1, "A"⟩⟩⟩,
    ⟨0, .rename ⟨⟨0, "A"⟩⟩ ⟨0, "int"⟩⟩, ⟨0, .rename ⟨⟨1, "A"⟩⟩ ⟨0, "B"⟩⟩]

theorem wellFormed_run_and_growsTo_run_crossing :
    (∀ op ∈ crossing, op.edit.AddsMade) ∧
      (SystemEdit.reached crossing 0).WellFormed ∧
      (Edit.rename ⟨⟨1, "A"⟩⟩ ⟨0, "B"⟩).apply (SystemEdit.reached crossing 0) =
        .error .danglingId ∧
      ⟨⟨0, "B"⟩⟩ ∈ (SystemEdit.reached (crossing ++ ⟨0, .addClass (.fresh ⟨0, "B"⟩)⟩ ::
        [⟨0, .rename ⟨⟨0, "B"⟩⟩ ⟨0, "C"⟩⟩]) 0).ids ∧
      (SystemEdit.reached (crossing ++ ⟨0, .addMethod ⟨⟨0, "A"⟩⟩ ⟨⟨0, "f"⟩, [], .int⟩⟩ ::
        [⟨0, .addMethod ⟨⟨0, "A"⟩⟩ ⟨⟨0, "f"⟩, [.int], .void⟩⟩]) 0).method? (.cls ⟨⟨0, "A"⟩⟩)
          ⟨0, "f"⟩ = some ⟨⟨0, "f"⟩, [], .int⟩ := by
  have hmade : ∀ op ∈ crossing, op.edit.AddsMade := by
    simp only [crossing, List.forall_mem_cons, List.not_mem_nil, false_implies, implies_true,
      and_true]
    exact ⟨.fresh _, .fresh _, trivial, trivial, trivial, trivial⟩
  rcases wellFormed_run_and_growsTo_run crossing hmade 0 with ⟨hwell, hdangling, hlater, -⟩
  have hother : (⟨⟨1, "A"⟩⟩ : ClassId) ∉ (SystemEdit.reached crossing 0).ids := by decide
  refine ⟨hmade, hwell, (hdangling _).2 ⟨_, rfl, hother⟩, ?_, ?_⟩
  · exact (hlater _).1 (.fresh ⟨0, "B"⟩) ⟨⟨0, "B"⟩⟩ _ rfl
  · exact (hlater _).2.1 ⟨⟨0, "A"⟩⟩ ⟨⟨0, "f"⟩, [], .int⟩ _ rfl

end Nominal
