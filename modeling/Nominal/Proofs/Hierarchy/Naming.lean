import Nominal.Proofs.Hierarchy.Replay
import Nominal.Proofs.Typing.Closed

/-!
# Names of types

What a name stands for is found by going through the classes and comparing texts, although classes
are told apart by symbols. The two ways agree as long as all classes are declared under symbols of
one table, since no class takes a reserved name (`TypeSystem.KeyedFrom`). Then a name stands for the
one type that is printed as the name and can be named (`typeNamed?_eq_some_iff`), so the answer
depends on the ids of the classes alone (`typeNamed?_congr`): neither on their order nor on what
they are called.

Main statement: `typeNamed?_eq_some_iff_nameable_and_text`.
-/

namespace Nominal

/-- A builtin name stands for the type that is printed as the name. -/
theorem builtin?_eq_some_iff {name : String} {t : Ty} :
    Ty.builtin? name = some t ↔
      (t = .int ∨ t = .boolean ∨ t = .double ∨ t = .void) ∧ t.text = name := by
  constructor
  · intro h
    unfold Ty.builtin? at h
    split at h
    · rcases Option.some.inj h with rfl
      exact ⟨.inl rfl, rfl⟩
    · rcases Option.some.inj h with rfl
      exact ⟨.inr (.inl rfl), rfl⟩
    · rcases Option.some.inj h with rfl
      exact ⟨.inr (.inr (.inl rfl)), rfl⟩
    · rcases Option.some.inj h with rfl
      exact ⟨.inr (.inr (.inr rfl)), rfl⟩
    · cases h
  · rintro ⟨rfl | rfl | rfl | rfl, rfl⟩ <;> rfl

namespace TypeSystem

/-! ## Classes of one table -/

/-- `ts.KeyedFrom table`: the ids of the classes are symbols of the table numbered `table`, and none
of them has a reserved text. -/
structure KeyedFrom (table : Nat) (ts : TypeSystem) : Prop where
  table_eq : ∀ id ∈ ts.ids, id.key.table = table
  unreserved : ∀ id ∈ ts.ids, id.key.text ∉ reservedNames

variable {table : Nat} {ts ts' : TypeSystem} {id id' : ClassId} {name : String} {t u : Ty}

theorem KeyedFrom.eq_of_text_eq (h : ts.KeyedFrom table) (hid : id ∈ ts.ids) (hid' : id' ∈ ts.ids)
    (htext : id.key.text = id'.key.text) : id = id' := by
  have htable : id.key.table = id'.key.table := by
    rw [h.table_eq id hid, h.table_eq id' hid']
  exact congrArg ClassId.mk (Symbol.eq_of_text_eq htable htext)

/-- No class has the name of a builtin type. -/
theorem KeyedFrom.builtin?_eq_none (h : ts.KeyedFrom table) (hid : id ∈ ts.ids) :
    Ty.builtin? id.key.text = none :=
  builtin?_eq_none_iff.2 (not_mem_builtinNames (h.unreserved id hid))

theorem nameable_cls_iff : ts.Nameable (.cls id) ↔ id ∈ ts.ids := by
  rw [mem_ids_iff]
  constructor
  · intro h
    cases h with
    | cls hc => exact ⟨_, hc⟩
  · rintro ⟨c, hc⟩
    exact .cls hc

/-- Which types can be named depends on the ids of the classes alone. -/
theorem nameable_congr (h : ∀ id, id ∈ ts'.ids ↔ id ∈ ts.ids) : ts'.Nameable t ↔ ts.Nameable t := by
  cases t with
  | cls id => rw [nameable_cls_iff, nameable_cls_iff, h id]
  | int => exact iff_of_true .int .int
  | boolean => exact iff_of_true .boolean .boolean
  | double => exact iff_of_true .double .double
  | void => exact iff_of_true .void .void
  | null => exact iff_of_false nofun nofun
  | unknown x => exact iff_of_false nofun nofun

/-! ## What a name stands for -/

theorem text_of_typeNamed? (h : ts.typeNamed? name = some t) : t.text = name := by
  rcases Option.or_eq_some_iff.1 h with hbuiltin | ⟨-, hclass⟩
  · exact (builtin?_eq_some_iff.1 hbuiltin).2
  · rcases Option.map_eq_some_iff.1 hclass with ⟨entry, hentry, rfl⟩
    simpa [Ty.text] using List.find?_some hentry

/-- A class is found under the text of its id. The search may come upon another entry of that text,
but not one with another id. -/
theorem KeyedFrom.typeNamed?_key (h : ts.KeyedFrom table) (hid : id ∈ ts.ids) :
    ts.typeNamed? id.key.text = some (.cls id) := by
  have hsome : (ts.classes.find? (·.1.key.text = id.key.text)).isSome = true := by
    rcases List.mem_map.1 hid with ⟨entry, hentry, rfl⟩
    rw [List.find?_isSome]
    exact ⟨entry, hentry, by simp⟩
  rcases Option.isSome_iff_exists.1 hsome with ⟨found, hfound⟩
  have htext : found.1.key.text = id.key.text := by
    simpa using List.find?_some hfound
  have hmem : found.1 ∈ ts.ids := List.mem_map_of_mem (List.mem_of_find?_eq_some hfound)
  rw [typeNamed?, h.builtin?_eq_none hid, hfound, Option.none_or, Option.map_some,
    h.eq_of_text_eq hmem hid htext]

theorem KeyedFrom.typeNamed?_eq_some_iff (h : ts.KeyedFrom table) :
    ts.typeNamed? name = some t ↔ ts.Nameable t ∧ t.text = name := by
  constructor
  · intro hname
    exact ⟨nameable_of_typeNamed? hname, text_of_typeNamed? hname⟩
  · rintro ⟨hnameable, rfl⟩
    cases hnameable with
    | int => rfl
    | boolean => rfl
    | double => rfl
    | void => rfl
    | cls hc => exact h.typeNamed?_key (mem_ids_iff.2 ⟨_, hc⟩)

/-- Types that can be named have different texts, since each one is what its text stands for. -/
theorem KeyedFrom.text_inj (h : ts.KeyedFrom table) (ht : ts.Nameable t) (hu : ts.Nameable u)
    (htext : t.text = u.text) : t = u := by
  have hname : ts.typeNamed? u.text = some t := h.typeNamed?_eq_some_iff.2 ⟨ht, htext⟩
  have hname' : ts.typeNamed? u.text = some u := h.typeNamed?_eq_some_iff.2 ⟨hu, rfl⟩
  exact Option.some.inj (hname.symm.trans hname')

/-- No type that can be named is printed as that of `null` is. -/
theorem KeyedFrom.text_ne_null (h : ts.KeyedFrom table) (ht : ts.Nameable t) :
    t.text ≠ "null" := by
  cases ht with
  | int => simp [Ty.text]
  | boolean => simp [Ty.text]
  | double => simp [Ty.text]
  | void => simp [Ty.text]
  | @cls id c hc =>
      have hunreserved := h.unreserved id (mem_ids_iff.2 ⟨c, hc⟩)
      intro hnull
      rw [show id.key.text = "null" from hnull] at hunreserved
      exact hunreserved (List.mem_append_right _ (List.mem_singleton_self _))

/-- What a name stands for depends on the ids of the classes alone. -/
theorem KeyedFrom.typeNamed?_congr (h : ts.KeyedFrom table)
    (hids : ∀ id, id ∈ ts'.ids ↔ id ∈ ts.ids) (name : String) :
    ts'.typeNamed? name = ts.typeNamed? name := by
  have h' : ts'.KeyedFrom table :=
    ⟨fun id hid => h.table_eq id ((hids id).1 hid), fun id hid => h.unreserved id ((hids id).1 hid)⟩
  apply Option.ext
  intro t
  rw [h'.typeNamed?_eq_some_iff, h.typeNamed?_eq_some_iff, nameable_congr hids]

end TypeSystem

/-! ## Histories -/

namespace Edit

/-- `Reaches table ts`: some history of changes leads to the type system `ts`, and all classes that
it adds, in vain or not, have their names from the table numbered `table`. -/
def Reaches (table : Nat) (ts : TypeSystem) : Prop :=
  ∃ history : List Edit, (∀ c, .addClass c ∈ history → c.name.table = table) ∧
    run .empty history = ts

variable {table : Nat} {ts : TypeSystem}

/-- A class of the type system was added under its id at some time. -/
theorem Reaches.keyedFrom (h : Reaches table ts) : ts.KeyedFrom table := by
  rcases h with ⟨history, hnames, rfl⟩
  have hrecords := records_run history
  refine ⟨?_, hrecords.unreserved⟩
  intro id hid
  rcases (hrecords.ids id).1 hid with ⟨c, hc, rfl⟩
  exact hnames c ((accepted_sublist .empty history).subset hc)

/-- Changing a definition leaves the ids alone, whether the change is refused or not. -/
theorem ids_step_of_target? {edit : Edit} {id : ClassId} (h : edit.target? = some id) :
    (edit.step ts).ids = ts.ids := by
  cases happly : edit.apply ts with
  | error err => rw [step_of_apply_eq_error happly]
  | ok ts' =>
      rw [step_of_apply_eq_ok happly]
      rw [apply_of_target? h] at happly
      rcases TypeSystem.update_eq_ok_iff.1 happly with ⟨d, d', -, -, rfl⟩
      exact TypeSystem.ids_replace ts id d'

end Edit

/-- In every type system whose classes are named from one table, a name stands for the type that can
be named and is printed as the name, so never for the type of `null` or an unknown type. In whatever
order the classes are gone through, and whatever they are defined as or called later, the answer is
the same. No class has the name of a builtin type, and both are found under their names. -/
theorem typeNamed?_eq_some_iff_nameable_and_text (table : Nat) (ts : TypeSystem)
    (h : Edit.Reaches table ts) (name : String) :
    (∀ t, ts.typeNamed? name = some t ↔ ts.Nameable t ∧ t.text = name) ∧
      (∀ t, ts.typeNamed? name = some t → t ≠ .null ∧ ∀ x, t ≠ .unknown x) ∧
      (∀ ts' : TypeSystem, ts'.ids.Perm ts.ids → ts'.typeNamed? name = ts.typeNamed? name) ∧
      (∀ id newName, ((Edit.rename id newName).step ts).typeNamed? name = ts.typeNamed? name) ∧
      (∀ t, Ty.builtin? name = some t → ts.typeNamed? name = some t) ∧
      ∀ id ∈ ts.ids, Ty.builtin? id.key.text = none ∧
        ts.typeNamed? id.key.text = some (.cls id) := by
  have hkeys := h.keyedFrom
  refine ⟨fun t => hkeys.typeNamed?_eq_some_iff, ?known, ?order, ?rename, ?builtin, ?key⟩
  case known =>
    intro t hname
    have hnameable := TypeSystem.nameable_of_typeNamed? hname
    refine ⟨?_, hnameable.ne_unknown⟩
    rintro rfl
    cases hnameable
  case order =>
    intro ts' hperm
    refine hkeys.typeNamed?_congr ?_ name
    intro id
    exact hperm.mem_iff
  case rename =>
    intro id newName
    refine hkeys.typeNamed?_congr ?_ name
    intro other
    rw [Edit.ids_step_of_target? rfl]
  case builtin =>
    intro t ht
    rw [TypeSystem.typeNamed?, ht, Option.some_or]
  case key =>
    intro id hid
    exact ⟨hkeys.builtin?_eq_none hid, hkeys.typeNamed?_key hid⟩

/-- The class `A` is renamed to `int` and the class `B` to `A`. A class `int` is refused, and so is
a second `A`. -/
def confusingNames : List Edit :=
  [.addClass (.fresh ⟨0, "A"⟩), .addClass (.fresh ⟨0, "int"⟩), .addClass (.fresh ⟨0, "B"⟩),
    .rename ⟨⟨0, "A"⟩⟩ ⟨0, "int"⟩, .rename ⟨⟨0, "B"⟩⟩ ⟨0, "A"⟩, .addClass (.fresh ⟨0, "A"⟩)]

theorem typeNamed?_confusingNames :
    Edit.Reaches 0 (Edit.run .empty confusingNames) ∧
      (Edit.run .empty confusingNames).typeNamed? "A" = some (.cls ⟨⟨0, "A"⟩⟩) ∧
      (Edit.run .empty confusingNames).typeNamed? "B" = some (.cls ⟨⟨0, "B"⟩⟩) ∧
      (Edit.run .empty confusingNames).typeNamed? "int" = some .int := by
  have hreaches : Edit.Reaches 0 (Edit.run .empty confusingNames) := by
    refine ⟨confusingNames, ?_, rfl⟩
    intro c hc
    simp only [confusingNames, List.mem_cons, Edit.addClass.injEq, reduceCtorEq, List.not_mem_nil,
      false_or, or_false] at hc
    rcases hc with rfl | rfl | rfl | rfl <;> rfl
  have hname := typeNamed?_eq_some_iff_nameable_and_text 0 _ hreaches
  refine ⟨hreaches, ?_, ?_, ?_⟩
  · exact ((hname "A").1 (.cls ⟨⟨0, "A"⟩⟩)).2 ⟨.cls rfl, rfl⟩
  · exact ((hname "B").1 (.cls ⟨⟨0, "B"⟩⟩)).2 ⟨.cls rfl, rfl⟩
  · exact ((hname "int").1 .int).2 ⟨.int, rfl⟩

end Nominal
