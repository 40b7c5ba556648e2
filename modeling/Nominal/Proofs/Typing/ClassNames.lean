import Nominal.Proofs.Typing.Agreement

/-!
# What a class is called

A class stands under the id that it was declared with. Its definition holds a name besides, which
may be changed at any time, and which is a symbol just as the id is. The name says what the error of
a repeated method calls the class, and nothing else depends on it:

* `TypeSystem.SameButNames` — two type systems have the same classes in the same order, apart from
  what they are called;
* `SameButNames.rename` — this stays so if a class of one of them is called otherwise;
* `SameButNames.step`, `SameButNames.run` — and if the same is changed in both of them, where the
  one refuses a change exactly if the other does;
* `SameButNames.answersAlike` — every query is answered alike.

Main statement: `answersAlike_run_renamings`.
-/

namespace Nominal

/-! ## One class -/

namespace ClassDef

/-- `c.SameButName c'`: the class `c'` is `c`, but may be called otherwise. -/
def SameButName (c c' : ClassDef) : Prop := ∃ name, c' = c.rename name

variable {c c' d : ClassDef}

theorem SameButName.refl (c : ClassDef) : c.SameButName c := ⟨c.name, rfl⟩

theorem SameButName.symm (h : c.SameButName c') : c'.SameButName c := by
  obtain ⟨name, rfl⟩ := h
  exact ⟨c.name, rfl⟩

theorem SameButName.rename (h : c.SameButName c') (name : Symbol) :
    c.SameButName (c'.rename name) := by
  obtain ⟨_, rfl⟩ := h
  exact ⟨name, rfl⟩

theorem SameButName.agrees (h : c.SameButName c') : c.Agrees c' := by
  obtain ⟨name, rfl⟩ := h
  exact ⟨method?_rename c name, fun _ => Iff.rfl, rfl⟩

theorem addSupertype_rename (c : ClassDef) (name : Symbol) (supertype : ClassId) :
    (c.rename name).addSupertype supertype = (c.addSupertype supertype).rename name := by
  by_cases hmem : supertype ∈ c.supertypes <;> simp [addSupertype, ClassDef.rename, hmem]

/-- A change that the class allows is allowed, and has the same effect, whatever it is called. -/
theorem SameButName.change {edit : Edit} (h : c.SameButName c') (hd : edit.change c = .ok d) :
    ∃ d', edit.change c' = .ok d' ∧ d.SameButName d' := by
  obtain ⟨name, rfl⟩ := h
  cases edit with
  | addMethod target m =>
      obtain ⟨hnew, rfl⟩ := addMethod_eq_ok_iff.1 hd
      refine ⟨_, addMethod_eq_ok_iff.2 ⟨?_, rfl⟩, name, rfl⟩
      rw [method?_rename, hnew]
  | addSupertype target supertype =>
      obtain rfl := Except.ok.inj hd
      exact ⟨_, rfl, name, addSupertype_rename c name supertype⟩
  | setConstructor target params =>
      obtain rfl := Except.ok.inj hd
      exact ⟨_, rfl, name, rfl⟩
  | rename target newName =>
      obtain rfl := Except.ok.inj hd
      exact ⟨_, rfl, newName, rfl⟩
  | addClass definition =>
      obtain rfl := Except.ok.inj hd
      exact ⟨_, rfl, name, rfl⟩

end ClassDef

/-! ## All classes -/

namespace TypeSystem

/-- `ts.SameButNames ts'`: the two type systems have the same classes in the same order, apart from
what they are called. -/
structure SameButNames (ts ts' : TypeSystem) : Prop where
  ids : ts'.ids = ts.ids
  classes : ts.Matches ClassDef.SameButName ts'

variable {ts ts' ts₁ : TypeSystem}

theorem SameButNames.refl (ts : TypeSystem) : ts.SameButNames ts := by
  refine ⟨rfl, ?_⟩
  intro id
  cases ts.class? id with
  | none => exact .none
  | some c => exact .some (.refl c)

theorem SameButNames.symm (h : ts.SameButNames ts') : ts'.SameButNames ts := by
  refine ⟨h.ids.symm, ?_⟩
  intro id
  have hid := h.classes id
  generalize ts.class? id = c, ts'.class? id = c' at hid ⊢
  cases hid with
  | none => exact .none
  | some hc => exact .some hc.symm

theorem SameButNames.exists_class? (h : ts.SameButNames ts') {id : ClassId} {c : ClassDef}
    (hc : ts.class? id = some c) : ∃ c', ts'.class? id = some c' ∧ c.SameButName c' := by
  have hid := h.classes id
  rw [hc] at hid
  generalize ts'.class? id = c' at hid ⊢
  cases hid with
  | some hc' => exact ⟨_, rfl, hc'⟩

/-! ### Changes -/

/-- A class may be called otherwise in one of the type systems. -/
theorem SameButNames.rename (h : ts.SameButNames ts') (id : ClassId) (name : Symbol) :
    ts.SameButNames ((Edit.rename id name).step ts') := by
  cases happly : (Edit.rename id name).apply ts' with
  | error err =>
      rw [Edit.step_of_apply_eq_error happly]
      exact h
  | ok ts'' =>
      rw [Edit.step_of_apply_eq_ok happly]
      obtain ⟨c', d', hc', hd', rfl⟩ := update_eq_ok_iff.1 happly
      obtain rfl := Except.ok.inj hd'
      obtain ⟨c, hc, hsame⟩ := h.symm.exists_class? hc'
      refine ⟨by rw [ids_replace, h.ids], ?_⟩
      intro other
      rw [class?_replace]
      by_cases hid : other = id
      · rw [if_pos hid, hid, hc, hc']
        exact .some (hsame.symm.rename name)
      · rw [if_neg hid]
        exact h.classes other

/-- A class that can be added to the one can be added to the other. -/
theorem SameButNames.addClass (h : ts.SameButNames ts') {c : ClassDef} {id : ClassId}
    (hadd : ts.addClass c = .ok (id, ts₁)) :
    ∃ ts₁', ts'.addClass c = .ok (id, ts₁') ∧ ts₁.SameButNames ts₁' := by
  obtain ⟨hreserved, hnew, hid, -⟩ := addClass_eq_ok_iff.1 hadd
  have hnew' : ts'.class? ⟨c.name⟩ = none := by
    rw [class?_eq_none_iff, h.ids, ← class?_eq_none_iff]
    exact hnew
  have hadd' := addClass_eq_ok_iff.2 ⟨hreserved, hnew', hid, rfl⟩
  refine ⟨_, hadd', ?_, ?_⟩
  · rw [ids_addClass hadd', ids_addClass hadd, h.ids]
  · intro other
    rw [class?_addClass hadd', class?_addClass hadd]
    by_cases hother : other = id
    · rw [if_pos hother, if_pos hother]
      exact .some (.refl c)
    · rw [if_neg hother, if_neg hother]
      exact h.classes other

/-- A definition that can be changed in the one can be changed in the other. -/
theorem SameButNames.update (h : ts.SameButNames ts') {edit : Edit} {id : ClassId}
    (hupdate : ts.update id edit.change = .ok ts₁) :
    ∃ ts₁', ts'.update id edit.change = .ok ts₁' ∧ ts₁.SameButNames ts₁' := by
  obtain ⟨c, d, hc, hd, rfl⟩ := update_eq_ok_iff.1 hupdate
  obtain ⟨c', hc', hsame⟩ := h.exists_class? hc
  obtain ⟨d', hd', hsame'⟩ := hsame.change hd
  refine ⟨_, update_eq_ok_iff.2 ⟨c', d', hc', hd', rfl⟩, ?_, ?_⟩
  · rw [ids_replace, ids_replace, h.ids]
  · intro other
    rw [class?_replace, class?_replace]
    by_cases hother : other = id
    · rw [if_pos hother, if_pos hother, hc, hc']
      exact .some hsame'
    · rw [if_neg hother, if_neg hother]
      exact h.classes other

theorem SameButNames.apply (h : ts.SameButNames ts') {edit : Edit}
    (happly : edit.apply ts = .ok ts₁) :
    ∃ ts₁', edit.apply ts' = .ok ts₁' ∧ ts₁.SameButNames ts₁' := by
  obtain ⟨c, rfl, hadd⟩ | ⟨id, htarget, hupdate⟩ := Edit.apply_cases happly
  · obtain ⟨ts₁', hadd', hsame⟩ := h.addClass hadd
    exact ⟨ts₁', Edit.apply_addClass_eq_ok_iff.2 hadd', hsame⟩
  · rw [Edit.apply_of_target? htarget]
    exact h.update hupdate

/-- A change is made in both of them or in none. -/
theorem SameButNames.apply_iff (h : ts.SameButNames ts') (edit : Edit) :
    (∃ ts₁, edit.apply ts' = .ok ts₁) ↔ ∃ ts₁, edit.apply ts = .ok ts₁ := by
  constructor
  · rintro ⟨ts₁, happly⟩
    obtain ⟨ts₁', happly', -⟩ := h.symm.apply happly
    exact ⟨ts₁', happly'⟩
  · rintro ⟨ts₁, happly⟩
    obtain ⟨ts₁', happly', -⟩ := h.apply happly
    exact ⟨ts₁', happly'⟩

theorem SameButNames.step (h : ts.SameButNames ts') (edit : Edit) :
    (edit.step ts).SameButNames (edit.step ts') := by
  cases happly : edit.apply ts with
  | ok ts₁ =>
      obtain ⟨ts₁', happly', hsame⟩ := h.apply happly
      rw [Edit.step_of_apply_eq_ok happly, Edit.step_of_apply_eq_ok happly']
      exact hsame
  | error err =>
      cases happly' : edit.apply ts' with
      | error err' =>
          rw [Edit.step_of_apply_eq_error happly, Edit.step_of_apply_eq_error happly']
          exact h
      | ok ts₁' =>
          obtain ⟨ts₁, hok⟩ := (h.apply_iff edit).1 ⟨ts₁', happly'⟩
          rw [happly] at hok
          cases hok

theorem SameButNames.run (h : ts.SameButNames ts') (history : List Edit) :
    (Edit.run ts history).SameButNames (Edit.run ts' history) := by
  induction history generalizing ts ts' with
  | nil => exact h
  | cons edit history ih => exact ih (h.step edit)

/-! ### Queries -/

/-- `ts.AnswersAlike ts'`: the two type systems answer every query alike, and refuse the same
changes. -/
structure AnswersAlike (ts ts' : TypeSystem) : Prop where
  staticType : ∀ e : Expr, e.staticType ts' = e.staticType ts
  check : ∀ e : Expr, e.check ts' = e.check ts
  checkLog : ∀ e : Expr, e.checkLog ts' = e.checkLog ts
  typeNamed : ∀ name, ts'.typeNamed? name = ts.typeNamed? name
  method : ∀ t name, ts'.method? t name = ts.method? t name
  constructorParams : ∀ t, ts'.constructor? t = ts.constructor? t
  isDirectSupertype : ∀ supertype t,
    ts'.isDirectSupertype supertype t = ts.isDirectSupertype supertype t
  isAssignable : ∀ rule param arg,
    ts'.isAssignable rule param arg = ts.isAssignable rule param arg
  apply : ∀ edit : Edit, (∃ ts₁, edit.apply ts' = .ok ts₁) ↔ ∃ ts₁, edit.apply ts = .ok ts₁

/-- What a name stands for is found among the ids, in their order. -/
theorem typeNamed?_of_ids_eq (h : ts'.ids = ts.ids) (name : String) :
    ts'.typeNamed? name = ts.typeNamed? name := by
  have hfound : ∀ ts : TypeSystem,
      (ts.classes.find? (·.1.key.text = name)).map (fun entry => Ty.cls entry.1) =
        (ts.ids.find? (·.key.text = name)).map Ty.cls := by
    intro ts
    rw [TypeSystem.ids, List.find?_map, Option.map_map]
    rfl
  rw [typeNamed?, typeNamed?, hfound, hfound, h]

theorem SameButNames.answersAlike (h : ts.SameButNames ts') : ts.AnswersAlike ts' := by
  have hagrees : ts.Matches ClassDef.Agrees ts' := h.classes.imp fun _ _ hc => hc.agrees
  exact {
    staticType := staticType_of_agrees hagrees
    check := check_of_agrees hagrees
    checkLog := checkLog_of_agrees hagrees
    typeNamed := typeNamed?_of_ids_eq h.ids
    method := method?_of_agrees hagrees
    constructorParams := constructor?_of_agrees hagrees
    isDirectSupertype := isDirectSupertype_of_agrees hagrees
    isAssignable := isAssignable_of_agrees hagrees
    apply := h.apply_iff }

end TypeSystem

/-! ## Renaming classes -/

/-- The changes that rename classes, one after the other. -/
def renamings (names : List (ClassId × Symbol)) : List Edit :=
  names.map fun (id, name) => .rename id name

theorem sameButNames_run_renamings {ts ts' : TypeSystem} (h : ts.SameButNames ts')
    (names : List (ClassId × Symbol)) : ts.SameButNames (Edit.run ts' (renamings names)) := by
  induction names generalizing ts' with
  | nil => exact h
  | cons entry names ih => exact ih (h.rename entry.1 entry.2)

/-- If classes are renamed in any way, every query is answered as before, and the same changes are
refused: at once and after any history of further changes. -/
theorem answersAlike_run_renamings (ts : TypeSystem) (names : List (ClassId × Symbol))
    (history : List Edit) :
    (Edit.run ts history).AnswersAlike (Edit.run (Edit.run ts (renamings names)) history) := by
  have hrenamed := sameButNames_run_renamings (.refl ts) names
  exact (hrenamed.run history).answersAlike

/-- The new name shows where a method is repeated. -/
example :
    let a : ClassId := ⟨⟨0, "A"⟩⟩
    let f : Method := ⟨⟨0, "f"⟩, [], .int⟩
    let ts : TypeSystem := { classes := [(a, { name := a.key, methods := [f] })] }
    (Edit.addMethod a f).apply ts = .error (.methodAlreadyDeclared "A" "f") ∧
      (Edit.addMethod a f).apply (Edit.run ts (renamings [(a, ⟨0, "B"⟩)])) =
        .error (.methodAlreadyDeclared "B" "f") := by decide

end Nominal
