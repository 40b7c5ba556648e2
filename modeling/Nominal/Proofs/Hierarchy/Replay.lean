import Nominal.Proofs.Declaration.Resolution
import Nominal.Proofs.Hierarchy.Changes

/-!
# What a history says

Which changes are refused can be read off the changes that were made before, without the type system
that they led to:

* `Edit.accepted` — the changes of a history that were made, without those that were refused;
* `Edit.Refused` — why a change is refused after such a list of changes;
* `Edit.Records` — a type system holds what a list of changes says. Every change that is made keeps
  this (`Edit.Records.step`), so it holds after every history (`Edit.records_run`).

Names are compared as symbols, so two tables may each have their own class `A`. Renaming a class
shows in the error of a repeated method and nowhere else.

Main statement: `apply_run_eq_error_iff_refused_and_replay`.
-/

namespace Nominal
namespace Edit

/-! ## The changes that were made -/

/-- The changes of a history that were not refused, in their order. -/
def accepted (ts : TypeSystem) : List Edit → List Edit
  | [] => []
  | edit :: history =>
    match edit.apply ts with
    | .ok ts' => edit :: accepted ts' history
    | .error _ => accepted ts history

variable {ts ts' : TypeSystem} {edit : Edit} {err : HierarchyError}

theorem accepted_cons_of_ok (h : edit.apply ts = .ok ts') (history : List Edit) :
    accepted ts (edit :: history) = edit :: accepted ts' history := by
  simp only [accepted, h]

theorem accepted_cons_of_error (h : edit.apply ts = .error err) (history : List Edit) :
    accepted ts (edit :: history) = accepted ts history := by
  simp only [accepted, h]

/-- The accepted changes can be made again, one after the other, and lead to the same type system.
`foldlM` stops at the first change that is refused, so none of them is. -/
theorem foldlM_accepted (ts : TypeSystem) (history : List Edit) :
    (accepted ts history).foldlM apply ts = .ok (run ts history) := by
  induction history generalizing ts with
  | nil => rfl
  | cons edit history ih =>
      have hrun : run ts (edit :: history) = run (edit.step ts) history := rfl
      rw [hrun]
      cases h : edit.apply ts with
      | ok ts' =>
          rw [accepted_cons_of_ok h, step_of_apply_eq_ok h, List.foldlM_cons, h]
          exact ih ts'
      | error err =>
          rw [accepted_cons_of_error h, step_of_apply_eq_error h]
          exact ih ts

theorem accepted_sublist (ts : TypeSystem) (history : List Edit) :
    (accepted ts history).Sublist history := by
  induction history generalizing ts with
  | nil => exact List.Sublist.refl []
  | cons edit history ih =>
      cases h : edit.apply ts with
      | ok ts' =>
          rw [accepted_cons_of_ok h]
          exact (ih ts').cons_cons edit
      | error err =>
          rw [accepted_cons_of_error h]
          exact (ih ts).cons edit

/-! ## What changes say about a class -/

/-- The name that a change gives to the class behind `id`. -/
def nameGiven? (id : ClassId) : Edit → Option Symbol
  | .addClass c => if id = ⟨c.name⟩ then some c.name else none
  | .rename target name => if id = target then some name else none
  | .addSupertype .. | .setConstructor .. | .addMethod .. => none

/-- The names of the methods that a change gives to the class behind `id`. -/
def methodsGiven (id : ClassId) : Edit → List Symbol
  | .addClass c => if id = ⟨c.name⟩ then c.methodNames else []
  | .addMethod target m => if id = target then [m.name] else []
  | .addSupertype .. | .setConstructor .. | .rename .. => []

/-- `Declared done id`: one of the changes adds a class under the symbol of `id`. -/
def Declared (done : List Edit) (id : ClassId) : Prop :=
  ∃ c, .addClass c ∈ done ∧ id = ⟨c.name⟩

/-- `MethodDeclared done id name`: one of the changes adds a method called `name` to the class
behind `id`. -/
def MethodDeclared (done : List Edit) (id : ClassId) (name : Symbol) : Prop :=
  ∃ edit ∈ done, name ∈ edit.methodsGiven id

/-- The name that the class behind `id` was given last. -/
def lastName? (done : List Edit) (id : ClassId) : Option Symbol :=
  done.reverse.findSome? (nameGiven? id)

/-- `Refused done edit err`: after the changes `done`, the change `edit` is refused as `err` says.
-/
inductive Refused (done : List Edit) : Edit → HierarchyError → Prop where
  | reserved {c : ClassDef} :
      c.name.text ∈ reservedNames → Refused done (.addClass c) (.reservedTypeName c.name.text)
  /-- The same symbol was declared, not only the same text. -/
  | declared {c : ClassDef} :
      Declared done ⟨c.name⟩ → Refused done (.addClass c) (.classAlreadyDeclared c.name.text)
  /-- The error calls the class by the name that it was given last. -/
  | methodDeclared {id : ClassId} {m : Method} {name : Symbol} :
      MethodDeclared done id m.name → lastName? done id = some name →
      Refused done (.addMethod id m) (.methodAlreadyDeclared name.text m.name.text)
  | dangling {edit : Edit} {id : ClassId} :
      edit.target? = some id → ¬ Declared done id → Refused done edit .danglingId

/-! ## One change more -/

section Append

variable (done : List Edit) (edit : Edit) (id : ClassId)

theorem declared_append_iff :
    Declared (done ++ [edit]) id ↔ Declared done id ∨ ∃ c, .addClass c = edit ∧ id = ⟨c.name⟩ := by
  simp [Declared, or_and_right, exists_or]

theorem methodDeclared_append_iff (name : Symbol) :
    MethodDeclared (done ++ [edit]) id name ↔
      MethodDeclared done id name ∨ name ∈ edit.methodsGiven id := by
  simp [MethodDeclared, or_and_right, exists_or]

theorem lastName?_append :
    lastName? (done ++ [edit]) id = (edit.nameGiven? id).or (lastName? done id) := by
  unfold lastName?
  rw [List.reverse_append, List.reverse_singleton, List.singleton_append, List.findSome?_cons]
  cases edit.nameGiven? id <;> rfl

end Append

/-- A change says nothing about other classes than its target. -/
theorem given_of_ne {id other : ClassId} (h : edit.target? = some id) (hne : other ≠ id) :
    edit.nameGiven? other = none ∧ edit.methodsGiven other = [] := by
  cases edit with
  | addClass c => cases h
  | _ =>
      cases h
      simp [nameGiven?, methodsGiven, hne]

/-- What a change says about its target is what it does to the definition. -/
theorem given_of_change {id : ClassId} {c c' : ClassDef} (h : edit.target? = some id)
    (hchange : edit.change c = .ok c') :
    some c'.name = (edit.nameGiven? id).or (some c.name) ∧
      ∀ name, name ∈ c'.methodNames ↔ name ∈ c.methodNames ∨ name ∈ edit.methodsGiven id := by
  cases edit with
  | addClass d => cases h
  | addMethod target m =>
      cases h
      rcases ClassDef.addMethod_eq_ok_iff.1 hchange with ⟨-, rfl⟩
      simp [nameGiven?, methodsGiven, ClassDef.methodNames, eq_comm]
  | addSupertype target supertype =>
      rcases Except.ok.inj hchange with rfl
      unfold ClassDef.addSupertype
      split <;> simp [nameGiven?, methodsGiven, ClassDef.methodNames]
  | setConstructor target params =>
      rcases Except.ok.inj hchange with rfl
      simp [nameGiven?, methodsGiven, ClassDef.methodNames, ClassDef.setConstructor]
  | rename target name =>
      cases h
      rcases Except.ok.inj hchange with rfl
      simp [nameGiven?, methodsGiven, ClassDef.methodNames, ClassDef.rename]

/-! ## The type system of a history -/

/-- `Records done ts`: the type system `ts` holds what the changes `done` say. -/
structure Records (done : List Edit) (ts : TypeSystem) : Prop where
  ids : ∀ id, id ∈ ts.ids ↔ Declared done id
  unreserved : ∀ id ∈ ts.ids, id.key.text ∉ reservedNames
  name : ∀ id, lastName? done id = (ts.class? id).map (·.name)
  methods : ∀ id name, MethodDeclared done id name ↔
    ∃ c, ts.class? id = some c ∧ name ∈ c.methodNames

variable {done : List Edit}

theorem records_empty : Records [] .empty := by
  constructor
  · intro id
    simp [Declared, TypeSystem.ids, TypeSystem.empty]
  · intro id hid
    cases hid
  · intro id
    rfl
  · intro id name
    simp [MethodDeclared]

theorem Records.addClass (h : Records done ts) {c : ClassDef} {id : ClassId}
    (hadd : ts.addClass c = .ok (id, ts')) : Records (done ++ [.addClass c]) ts' := by
  rcases TypeSystem.addClass_eq_ok_iff.1 hadd with ⟨hreserved, hnew, rfl, -⟩
  have hclass := TypeSystem.class?_addClass hadd
  refine ⟨?_, ?_, ?_, ?_⟩
  · intro other
    rw [TypeSystem.ids_addClass hadd, List.mem_append, List.mem_singleton, h.ids,
      declared_append_iff]
    simp
  · intro other hother
    rw [TypeSystem.ids_addClass hadd, List.mem_append, List.mem_singleton] at hother
    rcases hother with hother | rfl
    · exact h.unreserved other hother
    · rw [← isReserved_iff, Bool.not_eq_true]
      exact hreserved
  · intro other
    rw [lastName?_append, h.name, hclass]
    by_cases hother : other = ⟨c.name⟩ <;> simp [nameGiven?, hother]
  · intro other name
    rw [methodDeclared_append_iff, h.methods, hclass]
    by_cases hother : other = ⟨c.name⟩
    · simp [methodsGiven, hother, hnew]
    · simp [methodsGiven, hother]

theorem Records.update (h : Records done ts) {id : ClassId} (htarget : edit.target? = some id)
    (hupdate : ts.update id edit.change = .ok ts') : Records (done ++ [edit]) ts' := by
  rcases TypeSystem.update_eq_ok_iff.1 hupdate with ⟨d, d', hd, hchange, rfl⟩
  have hclass := TypeSystem.class?_replace ts id d'
  have hadds : ∀ c, .addClass c ≠ edit := by
    rintro c rfl
    cases htarget
  rcases given_of_change htarget hchange with ⟨hname, hmethods⟩
  refine ⟨?_, ?_, ?_, ?_⟩
  · intro other
    rw [TypeSystem.ids_replace, h.ids, declared_append_iff]
    simp [hadds]
  · rw [TypeSystem.ids_replace]
    exact h.unreserved
  · intro other
    rw [lastName?_append, h.name, hclass]
    by_cases hother : other = id
    · simp [hother, hd, hname]
    · simp [hother, (given_of_ne htarget hother).1]
  · intro other name
    rw [methodDeclared_append_iff, h.methods, hclass]
    by_cases hother : other = id
    · simp [hother, hd, hmethods]
    · simp [hother, (given_of_ne htarget hother).2]

/-- A change that is made adds to the type system what it says. -/
theorem Records.step (h : Records done ts) (happly : edit.apply ts = .ok ts') :
    Records (done ++ [edit]) ts' := by
  rcases apply_cases happly with ⟨c, rfl, hadd⟩ | ⟨id, htarget, hupdate⟩
  · exact h.addClass hadd
  · exact h.update htarget hupdate

/-- The changes that were made before stand in front of those that are made now. -/
theorem Records.run (h : Records done ts) (history : List Edit) :
    Records (done ++ accepted ts history) (run ts history) := by
  induction history generalizing done ts with
  | nil =>
      rw [accepted, List.append_nil]
      exact h
  | cons edit history ih =>
      have hrun : Edit.run ts (edit :: history) = Edit.run (edit.step ts) history := rfl
      rw [hrun]
      cases happly : edit.apply ts with
      | ok ts' =>
          have hstep := ih (h.step happly)
          rw [accepted_cons_of_ok happly, step_of_apply_eq_ok happly]
          rwa [List.append_assoc, List.singleton_append] at hstep
      | error err =>
          rw [accepted_cons_of_error happly, step_of_apply_eq_error happly]
          exact ih h

theorem records_run (history : List Edit) :
    Records (accepted .empty history) (Edit.run .empty history) :=
  records_empty.run history

/-- Where a type system holds what was said, what was said decides which changes it refuses. -/
theorem Records.apply_eq_error_iff (h : Records done ts) :
    edit.apply ts = .error err ↔ Refused done edit err := by
  rw [Edit.apply_eq_error_iff]
  constructor
  · rintro (⟨c, rfl, hreserved, rfl⟩ | ⟨c, rfl, -, hid, rfl⟩ | ⟨id, htarget, hid, rfl⟩ |
      ⟨id, m, c, rfl, hc, hm, rfl⟩)
    · exact .reserved (isReserved_iff.1 hreserved)
    · exact .declared ((h.ids _).1 hid)
    · exact .dangling htarget (mt (h.ids id).2 hid)
    · refine .methodDeclared ((h.methods id m.name).2 ⟨c, hc, hm⟩) ?_
      rw [h.name, hc, Option.map_some]
  · intro hrefused
    cases hrefused with
    | @reserved c hreserved => exact .inl ⟨c, rfl, isReserved_iff.2 hreserved, rfl⟩
    | @declared c hdeclared =>
        -- A class was declared under this symbol, so its text is not reserved.
        have hid : ⟨c.name⟩ ∈ ts.ids := (h.ids _).2 hdeclared
        have hunreserved : isReserved c.name.text = false := by
          rw [← Bool.not_eq_true, isReserved_iff]
          exact h.unreserved _ hid
        exact .inr (.inl ⟨c, rfl, hunreserved, hid, rfl⟩)
    | @methodDeclared id m name hmethod hname =>
        rcases (h.methods id m.name).1 hmethod with ⟨c, hc, hm⟩
        rw [h.name, hc, Option.map_some] at hname
        have hname' : c.name = name := Option.some.inj hname
        exact .inr (.inr (.inr ⟨id, m, c, rfl, hc, hm, by rw [hname']⟩))
    | @dangling edit id htarget hdeclared =>
        exact .inr (.inr (.inl ⟨id, htarget, mt (h.ids id).1 hdeclared, rfl⟩))

end Edit

/-- After any history, a change is refused exactly as the changes that were made before say; every
class has the name that it was given last; and replaying the changes that were made, without those
that were refused, leads to the same type system. -/
theorem apply_run_eq_error_iff_refused_and_replay (history : List Edit) :
    (∀ edit err, Edit.apply (Edit.run .empty history) edit = .error err ↔
      Edit.Refused (Edit.accepted .empty history) edit err) ∧
    (∀ id, ((Edit.run .empty history).class? id).map (·.name) =
      Edit.lastName? (Edit.accepted .empty history) id) ∧
    (Edit.accepted .empty history).foldlM Edit.apply .empty = .ok (Edit.run .empty history) := by
  have hrecords := Edit.records_run history
  refine ⟨?_, ?_, Edit.foldlM_accepted .empty history⟩
  · intro edit err
    exact hrecords.apply_eq_error_iff
  · intro id
    exact (hrecords.name id).symm

/-- Two tables have a class `A` each. One of the two is renamed, which does not free its symbol. -/
example :
    let f : Method := ⟨⟨0, "f"⟩, [], .int⟩
    let history : List Edit :=
      [.addClass (.fresh ⟨0, "A"⟩), .addClass (.fresh ⟨1, "A"⟩), .rename ⟨⟨0, "A"⟩⟩ ⟨0, "B"⟩,
        .addClass (.fresh ⟨0, "A"⟩), .addMethod ⟨⟨0, "A"⟩⟩ f, .addMethod ⟨⟨0, "B"⟩⟩ f]
    (Edit.accepted .empty history).length = 4 ∧
      Edit.apply (Edit.run .empty history) (.addMethod ⟨⟨0, "A"⟩⟩ { f with returns := .void }) =
        .error (.methodAlreadyDeclared "B" "f") :=
  ⟨rfl, rfl⟩

end Nominal
