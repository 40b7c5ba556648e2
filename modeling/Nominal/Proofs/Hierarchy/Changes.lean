import Nominal.Hierarchy.Edit

/-!
# What a change does

A change either adds a class, or it changes the definition behind one id (`Edit.target?`) in a way
that depends on that definition alone (`Edit.change`). Whatever a change can do to a type system is
said by two lemmas, from which everything else about changes follows:

* `Edit.apply_cases` — what a change does when it is made;
* `Edit.apply_eq_error_iff` — when it is refused, and why.
-/

namespace Nominal

/-! ## One class -/

namespace ClassDef

theorem method?_eq_none_iff {c : ClassDef} {name : Symbol} :
    c.method? name = none ↔ name ∉ c.methodNames := by
  simp [method?, methodNames]

/-- A method is refused exactly if the class has one of that name. -/
theorem addMethod_eq_error_iff {c : ClassDef} {m : Method} {err : HierarchyError} :
    c.addMethod m = .error err ↔
      m.name ∈ c.methodNames ∧ err = .methodAlreadyDeclared c.name.text m.name.text := by
  unfold addMethod
  by_cases hmem : m.name ∈ c.methodNames
  · have hsome : c.method? m.name ≠ none := fun hnone => method?_eq_none_iff.1 hnone hmem
    rcases Option.ne_none_iff_exists'.1 hsome with ⟨found, hfound⟩
    simp [hfound, hmem, eq_comm]
  · simp [method?_eq_none_iff.2 hmem, hmem]

end ClassDef

/-! ## The ids of a type system -/

namespace TypeSystem

/-- The ids of the classes, in the order of their declaration. -/
def ids (ts : TypeSystem) : List ClassId := ts.classes.map (·.1)

variable {ts ts' : TypeSystem} {id : ClassId} {c : ClassDef}

theorem class?_eq_none_iff : ts.class? id = none ↔ id ∉ ts.ids := by
  rw [class?, ids, Option.map_eq_none_iff, List.find?_eq_none, List.mem_map]
  constructor
  · rintro hall ⟨entry, hentry, rfl⟩
    simpa using hall entry hentry
  · intro hnot entry hentry
    simpa using fun hid => hnot ⟨entry, hentry, hid⟩

theorem mem_ids_iff : id ∈ ts.ids ↔ ∃ c, ts.class? id = some c := by
  rw [← Option.isSome_iff_exists, ← Option.ne_none_iff_isSome, ne_eq, class?_eq_none_iff,
    Decidable.not_not]

theorem ids_addClass (h : ts.addClass c = .ok (id, ts')) : ts'.ids = ts.ids ++ [id] := by
  rcases addClass_eq_ok_iff.1 h with ⟨_, _, rfl, rfl⟩
  simp [ids]

/-- A definition is replaced under the id that it has. -/
@[simp] theorem ids_replace (ts : TypeSystem) (id : ClassId) (c : ClassDef) :
    (ts.replace id c).ids = ts.ids := by
  have hfst : ∀ entry : ClassId × ClassDef,
      (if entry.1 = id then (id, c) else entry).1 = entry.1 := by
    intro entry
    split
    · exact Eq.symm ‹_›
    · rfl
  simp [ids, replace, Function.comp_def, hfst]

theorem addClass_eq_error_iff {err : HierarchyError} :
    ts.addClass c = .error err ↔
      isReserved c.name.text = true ∧ err = .reservedTypeName c.name.text ∨
      isReserved c.name.text = false ∧ ⟨c.name⟩ ∈ ts.ids ∧
        err = .classAlreadyDeclared c.name.text := by
  unfold addClass
  cases hreserved : isReserved c.name.text with
  | true => simp [eq_comm]
  | false =>
      cases hc : ts.class? ⟨c.name⟩ with
      | none => simp [class?_eq_none_iff.1 hc]
      | some d => simp [mem_ids_iff.2 ⟨d, hc⟩, eq_comm]

/-- A change of a definition is refused if there is no definition, or as the definition refuses
it. -/
theorem update_eq_error_iff {change : ClassDef → Except HierarchyError ClassDef}
    {err : HierarchyError} :
    ts.update id change = .error err ↔
      id ∉ ts.ids ∧ err = .danglingId ∨
      ∃ d, ts.class? id = some d ∧ change d = .error err := by
  unfold update
  cases hd : ts.class? id with
  | none => simp [class?_eq_none_iff.1 hd, eq_comm]
  | some d =>
      have hmem : id ∈ ts.ids := mem_ids_iff.2 ⟨d, hd⟩
      cases hchange : change d <;> simp [hmem, hchange, Except.map]

end TypeSystem

/-! ## Changes -/

namespace Edit

/-- The class whose definition is changed. A class that is added is not changed. -/
def target? : Edit → Option ClassId
  | .addClass _ => none
  | .addSupertype target _ | .setConstructor target _ | .addMethod target _ | .rename target _ =>
    some target

/-- What becomes of the definition of the target. -/
def change : Edit → ClassDef → Except HierarchyError ClassDef
  | .addClass _ => .ok
  | .addSupertype _ supertype => fun c => .ok (c.addSupertype supertype)
  | .setConstructor _ params => fun c => .ok (c.setConstructor params)
  | .addMethod _ m => (·.addMethod m)
  | .rename _ name => fun c => .ok (c.rename name)

variable {ts ts' : TypeSystem} {edit : Edit} {err : HierarchyError}

/-- What is left behind by a change that is made. -/
theorem step_of_apply_eq_ok (h : edit.apply ts = .ok ts') : edit.step ts = ts' := by
  rw [step, h]

/-- What is left behind by a change that is refused. -/
theorem step_of_apply_eq_error (h : edit.apply ts = .error err) : edit.step ts = ts := by
  rw [step, h]

theorem apply_of_target? {id : ClassId} (h : edit.target? = some id) :
    edit.apply ts = ts.update id edit.change := by
  cases edit with
  | addClass c => cases h
  | _ => cases h; rfl

theorem apply_addClass_eq_ok_iff {c : ClassDef} :
    (Edit.addClass c).apply ts = .ok ts' ↔ ts.addClass c = .ok (⟨c.name⟩, ts') := by
  rw [apply]
  cases hadd : ts.addClass c with
  | error err => simp [Except.map]
  | ok added =>
      rcases added with ⟨id, ts''⟩
      have hid : id = ⟨c.name⟩ := (TypeSystem.addClass_eq_ok_iff.1 hadd).2.2.1
      simp [Except.map, hid]

theorem apply_addClass_eq_error_iff {c : ClassDef} :
    (Edit.addClass c).apply ts = .error err ↔ ts.addClass c = .error err := by
  rw [apply]
  cases ts.addClass c <;> simp [Except.map]

/-- A change that is made adds a class, or changes the definition of its target. -/
theorem apply_cases (h : edit.apply ts = .ok ts') :
    (∃ c, edit = .addClass c ∧ ts.addClass c = .ok (⟨c.name⟩, ts')) ∨
      ∃ id, edit.target? = some id ∧ ts.update id edit.change = .ok ts' := by
  cases htarget : edit.target? with
  | some id => exact .inr ⟨id, rfl, apply_of_target? htarget ▸ h⟩
  | none =>
      cases edit with
      | addClass c => exact .inl ⟨c, rfl, apply_addClass_eq_ok_iff.1 h⟩
      | _ => cases htarget

/-- Only methods are refused by the definition of a class. -/
theorem change_eq_error_iff {c : ClassDef} :
    edit.change c = .error err ↔
      ∃ id m, edit = .addMethod id m ∧ m.name ∈ c.methodNames ∧
        err = .methodAlreadyDeclared c.name.text m.name.text := by
  cases edit with
  | addMethod id m => simp [change, ClassDef.addMethod_eq_error_iff, and_assoc]
  | _ => simp [change]

/-- The four ways in which a change is refused. -/
theorem apply_eq_error_iff :
    edit.apply ts = .error err ↔
      (∃ c, edit = .addClass c ∧ isReserved c.name.text = true ∧
        err = .reservedTypeName c.name.text) ∨
      (∃ c, edit = .addClass c ∧ isReserved c.name.text = false ∧ ⟨c.name⟩ ∈ ts.ids ∧
        err = .classAlreadyDeclared c.name.text) ∨
      (∃ id, edit.target? = some id ∧ id ∉ ts.ids ∧ err = .danglingId) ∨
      (∃ id m c, edit = .addMethod id m ∧ ts.class? id = some c ∧ m.name ∈ c.methodNames ∧
        err = .methodAlreadyDeclared c.name.text m.name.text) := by
  cases htarget : edit.target? with
  | none =>
      cases edit with
      | addClass c =>
          rw [apply_addClass_eq_error_iff, TypeSystem.addClass_eq_error_iff]
          simp
      | _ => cases htarget
  | some id =>
      rw [apply_of_target? htarget, TypeSystem.update_eq_error_iff]
      simp only [change_eq_error_iff]
      cases edit with
      | addClass c => cases htarget
      | addMethod target m =>
          cases htarget
          simp [and_assoc]
      | _ => simp

end Edit
end Nominal
