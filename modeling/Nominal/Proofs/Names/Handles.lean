import Mathlib.Data.List.Induction
import Mathlib.Data.String.Basic
import Mathlib.Logic.Function.Basic
import Nominal.Proofs.Lists.Repetitions
import Nominal.Proofs.Names.Storage

/-!
# Symbols over whole runs

Any number of string tables intern texts and look them up, in any order. Beside each table runs the
pool that it is stored in, and whatever they return is kept as a handle: a symbol, and the slice
that stands for it. The invariant is that a pool finds for each text the slice that was interned
first for it (`StoredTable.Holds`). As this slice stays the first one whatever is interned later, a
handle never gets out of date (`Handle.Current`).

In memory, symbols are compared by the addresses of their slices. This tells symbols of one table
apart by their texts, if different texts stand at different addresses. It tells symbols of different
tables apart only if no slice is interned in two of them, as in `sharedSlice`: an address does not
say which table returned it. The order of symbols is that of their texts. Within one table it tells
all symbols apart, but not across tables.

Main statement: `answersTo_run`.
-/

namespace Nominal

/-! ## Runs -/

/-- What the table of that number is asked for. -/
inductive Request where
  | intern (table : Nat) (value : Slice)
  | lookup (table : Nat) (text : String)

/-- The slice that a request interns in the table numbered `table`. -/
def Request.interned? (table : Nat) : Request → Option Slice
  | .intern table' value => if table' = table then some value else none
  | .lookup _ _ => none

/-- The slices that are interned in the table numbered `table`, in the order of the requests. -/
def internedSlices (requests : List Request) (table : Nat) : List Slice :=
  requests.filterMap (Request.interned? table)

/-- The texts that are interned in the table numbered `table`, with their repetitions. -/
def internedTexts (requests : List Request) (table : Nat) : List String :=
  (internedSlices requests table).map (·.text)

/-- The slice from which `text` is interned first in the table numbered `table`. -/
def firstInterned (requests : List Request) (table : Nat) (text : String) : Option Slice :=
  Slice.first? (internedSlices requests table) text

/-- The address of that slice. -/
def firstAddress (requests : List Request) (table : Nat) (text : String) : Option Nat :=
  (firstInterned requests table text).map (·.address)

/-- Different texts are interned from different addresses. A text and the beginning of it stand at
one address, so only one of them may be interned. -/
def TextsApart (requests : List Request) : Prop :=
  ∀ table value table' value', .intern table value ∈ requests → .intern table' value' ∈ requests →
    value.address = value'.address → value.text = value'.text

/-- Different tables intern texts of their own. The empty text takes no memory, so it may be
interned in one table only. -/
def TablesApart (requests : List Request) : Prop :=
  ∀ table value table' value', .intern table value ∈ requests → .intern table' value' ∈ requests →
    value.address = value'.address → table = table'

/-- A table of texts and the pool it is stored in. -/
structure StoredTable where
  pool : Pool
  table : StringTable

/-- The table after it interned the text of `value`. -/
def StoredTable.intern (s : StoredTable) (value : Slice) : StoredTable :=
  ⟨(s.pool.intern value).2, (s.table.intern value.text).2⟩

/-- What the table numbered `table` returned for `text`. -/
structure Handle where
  table : Nat
  text : String
  slice : Slice
  symbol : Symbol

/-- The tables by their numbers, and all that they returned, the latest last. -/
structure Session where
  stored : Nat → StoredTable := fun table => ⟨{}, .empty table⟩
  handles : List Handle := []

namespace Session

/-- Answers a request. A look-up that finds nothing returns no handle. -/
def next (st : Session) : Request → Session
  | .intern k value =>
    { stored := Function.update st.stored k ((st.stored k).intern value)
      handles := st.handles ++ [{
        table := k
        text := value.text
        slice := ((st.stored k).pool.intern value).1
        symbol := ((st.stored k).table.intern value.text).1 }] }
  | .lookup k text =>
    match (st.stored k).pool.lookup text, (st.stored k).table.lookup text with
    | some slice, some symbol => { st with handles := st.handles ++ [⟨k, text, slice, symbol⟩] }
    | _, _ => st

/-- What is there after all requests. -/
def run (requests : List Request) : Session :=
  requests.foldl next {}

end Session

/-! ## What was interned -/

section Interned

variable {requests : List Request} {k : Nat} {value : Slice} {text : String}

theorem mem_internedSlices_iff :
    value ∈ internedSlices requests k ↔ .intern k value ∈ requests := by
  rw [internedSlices, List.mem_filterMap]
  constructor
  · rintro ⟨r, hr, hvalue⟩
    cases r with
    | intern table value' =>
        simp only [Request.interned?, Option.ite_none_right_eq_some, Option.some.injEq] at hvalue
        obtain ⟨rfl, rfl⟩ := hvalue
        exact hr
    | lookup => cases hvalue
  · intro h
    exact ⟨_, h, if_pos rfl⟩

theorem internedSlices_concat (requests : List Request) (r : Request) (k : Nat) :
    internedSlices (requests ++ [r]) k = internedSlices requests k ++ (r.interned? k).toList := by
  cases h : r.interned? k <;> simp [internedSlices, h]

theorem internedSlices_concat_of_eq_none {r : Request} (hr : r.interned? k = none) :
    internedSlices (requests ++ [r]) k = internedSlices requests k := by
  rw [internedSlices_concat, hr, Option.toList_none, List.append_nil]

theorem internedSlices_concat_intern (requests : List Request) (k : Nat) (value : Slice) :
    internedSlices (requests ++ [.intern k value]) k = internedSlices requests k ++ [value] := by
  rw [internedSlices_concat, Request.interned?, if_pos rfl, Option.toList_some]

theorem firstInterned_concat_intern (requests : List Request) (k : Nat) (value : Slice)
    (text : String) :
    firstInterned (requests ++ [.intern k value]) k text =
      (firstInterned requests k text).or (Slice.first? [value] text) := by
  rw [firstInterned, internedSlices_concat_intern, Slice.first?_append, firstInterned]

/-- What was interned first stays so. -/
theorem firstInterned_concat_of_eq_some (h : firstInterned requests k text = some value)
    (r : Request) : firstInterned (requests ++ [r]) k text = some value := by
  rw [firstInterned] at h
  rw [firstInterned, internedSlices_concat, Slice.first?_append, h, Option.some_or]

theorem isSome_firstInterned_iff (requests : List Request) (k : Nat) (text : String) :
    (firstInterned requests k text).isSome ↔ text ∈ internedTexts requests k :=
  Slice.isSome_first?_iff ..

end Interned

/-! ## What is kept -/

/-- `s.Holds requests k`: the table numbered `k` and its pool hold what the requests interned in
them, the pool from where it was interned first. -/
structure StoredTable.Holds (requests : List Request) (k : Nat) (s : StoredTable) : Prop where
  id_eq : s.table.id = k
  stores : s.pool.Stores s.table
  lookup_eq : ∀ text, s.pool.lookup text = firstInterned requests k text

/-- `a.Current requests`: the handle is the slice that the requests interned first for its text. -/
structure Handle.Current (requests : List Request) (a : Handle) : Prop where
  slice_eq : firstInterned requests a.table a.text = some a.slice
  symbol_eq : a.symbol = ⟨a.table, a.text⟩

/-- `st.Keeps requests`: the tables hold what the requests interned in them, and all handles are
current. -/
structure Session.Keeps (requests : List Request) (st : Session) : Prop where
  holds : ∀ k, (st.stored k).Holds requests k
  current : ∀ a ∈ st.handles, a.Current requests

variable {requests : List Request} {st : Session} {s : StoredTable} {k : Nat} {a b : Handle}

/-! ### One table -/

namespace StoredTable

/-- Look-ups, and whatever other tables are asked for, change nothing. -/
theorem Holds.concat_of_eq_none (h : s.Holds requests k) {r : Request}
    (hr : r.interned? k = none) : s.Holds (requests ++ [r]) k := by
  refine ⟨h.id_eq, h.stores, ?_⟩
  intro text
  rw [firstInterned, internedSlices_concat_of_eq_none hr]
  exact h.lookup_eq text

theorem Holds.intern (h : s.Holds requests k) (value : Slice) :
    (s.intern value).Holds (requests ++ [.intern k value]) k := by
  refine ⟨(StringTable.id_insert s.table value.text).trans h.id_eq, h.stores.insert value, ?_⟩
  intro text
  rw [firstInterned_concat_intern, ← h.lookup_eq text]
  exact Pool.lookup_intern s.pool value text

theorem Holds.mem_texts_iff (h : s.Holds requests k) (text : String) :
    text ∈ s.table.texts ↔ text ∈ internedTexts requests k := by
  rw [← h.stores.isSome_lookup, h.lookup_eq, isSome_firstInterned_iff]

theorem Holds.size_eq (h : s.Holds requests k) :
    s.table.size = (internedTexts requests k).dedup.length := by
  have hperm : s.table.texts.Perm (internedTexts requests k).dedup := by
    rw [List.perm_ext_iff_of_nodup s.table.nodup (List.nodup_dedup _)]
    intro text
    rw [h.mem_texts_iff, List.mem_dedup]
  exact hperm.length_eq

/-- A table finds what was interned in it, and its pool finds the same texts. -/
theorem Holds.lookup_cases (h : s.Holds requests k) (text : String) :
    (text ∈ internedTexts requests k ∧ s.table.lookup text = some ⟨k, text⟩ ∧
        ∃ slice, s.pool.lookup text = some slice) ∨
      text ∉ internedTexts requests k ∧ s.table.lookup text = none ∧ s.pool.lookup text = none := by
  have hpool := h.stores.isSome_lookup text
  by_cases htext : text ∈ s.table.texts
  · have htable : s.table.lookup text = some ⟨k, text⟩ := by
      rw [StringTable.lookup, if_pos htext, StringTable.symbol, h.id_eq]
    exact .inl ⟨(h.mem_texts_iff text).1 htext, htable, Option.isSome_iff_exists.1 (hpool.2 htext)⟩
  · have hnone : s.pool.lookup text = none := by
      rw [← Option.not_isSome_iff_eq_none, hpool]
      exact htext
    exact .inr ⟨mt (h.mem_texts_iff text).2 htext, if_neg htext, hnone⟩

end StoredTable

theorem Handle.Current.concat (h : a.Current requests) (r : Request) :
    a.Current (requests ++ [r]) :=
  ⟨firstInterned_concat_of_eq_some h.slice_eq r, h.symbol_eq⟩

/-! ### All tables -/

namespace Session

theorem stored_next_intern_self (st : Session) (k : Nat) (value : Slice) :
    (st.next (.intern k value)).stored k = (st.stored k).intern value :=
  Function.update_self ..

theorem stored_next_intern_of_ne (st : Session) {k l : Nat} (h : l ≠ k) (value : Slice) :
    (st.next (.intern k value)).stored l = st.stored l :=
  Function.update_of_ne h ..

theorem Keeps.next_intern (h : st.Keeps requests) (k : Nat) (value : Slice) :
    (st.next (.intern k value)).Keeps (requests ++ [.intern k value]) := by
  have hself : ((st.stored k).intern value).Holds (requests ++ [.intern k value]) k :=
    (h.holds k).intern value
  constructor
  case holds =>
    intro l
    by_cases hl : l = k
    · rw [hl, stored_next_intern_self]
      exact hself
    · rw [stored_next_intern_of_ne st hl]
      exact (h.holds l).concat_of_eq_none (if_neg (Ne.symm hl))
  case current =>
    intro a ha
    rcases List.mem_append.1 ha with hearlier | hnew
    · exact (h.current a hearlier).concat _
    · -- What the table returned is what it finds now, and that is the slice interned first.
      rw [List.mem_singleton.1 hnew]
      refine ⟨?_, ?_⟩
      · exact (hself.lookup_eq value.text).symm.trans (Pool.lookup_intern_self _ value)
      · rw [StringTable.intern, StringTable.symbol, (h.holds k).id_eq]

theorem Keeps.next_lookup (h : st.Keeps requests) (k : Nat) (text : String) :
    (st.next (.lookup k text)).Keeps (requests ++ [.lookup k text]) := by
  have hholds : ∀ l, (st.stored l).Holds (requests ++ [.lookup k text]) l :=
    fun l => (h.holds l).concat_of_eq_none rfl
  have hearlier : ∀ a ∈ st.handles, a.Current (requests ++ [.lookup k text]) :=
    fun a ha => (h.current a ha).concat _
  rcases (h.holds k).lookup_cases text with ⟨-, htable, slice, hpool⟩ | ⟨-, htable, hpool⟩
  · simp only [next, hpool, htable]
    refine ⟨hholds, ?_⟩
    intro a ha
    rcases List.mem_append.1 ha with ha | hnew
    · exact hearlier a ha
    · rw [List.mem_singleton.1 hnew]
      exact ⟨((hholds k).lookup_eq text).symm.trans hpool, rfl⟩
  · simp only [next, hpool]
    exact ⟨hholds, hearlier⟩

theorem keeps_run (requests : List Request) : (run requests).Keeps requests := by
  induction requests using List.reverseRecOn with
  | nil =>
      have hholds : ∀ k, StoredTable.Holds [] k ⟨{}, .empty k⟩ := fun k => ⟨rfl, rfl, fun _ => rfl⟩
      exact ⟨hholds, fun _ ha => absurd ha List.not_mem_nil⟩
  | append_singleton requests r ih =>
      rw [run, List.foldl_concat]
      cases r with
      | intern k value => exact ih.next_intern k value
      | lookup k text => exact ih.next_lookup k text

end Session

/-! ## Sorted symbols -/

namespace Symbol

variable {a b : Symbol}

theorem order_eq_iff : a.order b = .eq ↔ a.text = b.text := by
  rw [order, compare_eq_iff_eq]

theorem isLE_order_iff : (a.order b).isLE = true ↔ a.text ≤ b.text := by
  rw [order, Ordering.isLE_iff_ne_gt]
  exact compare_le_iff_le

theorem sort_perm (symbols : List Symbol) : (sort symbols).Perm symbols :=
  List.mergeSort_perm _ _

/-- Sorted symbols ascend. -/
theorem pairwise_sort (symbols : List Symbol) :
    (sort symbols).Pairwise fun a b => (a.order b).isLE = true := by
  refine List.pairwise_mergeSort ?_ ?_ symbols
  · intro a b c hab hbc
    exact isLE_order_iff.2 ((isLE_order_iff.1 hab).trans (isLE_order_iff.1 hbc))
  · intro a b
    rw [Bool.or_eq_true, isLE_order_iff, isLE_order_iff]
    exact le_total a.text b.text

/-- Sorting symbols of one table gives the same symbols in the same order, however they were ordered
before. -/
theorem sort_eq_of_perm {symbols symbols' : List Symbol} {table : Nat}
    (htable : ∀ a ∈ symbols, a.table = table) (h : symbols.Perm symbols') :
    sort symbols = sort symbols' := by
  have hperm : (sort symbols).Perm (sort symbols') :=
    (sort_perm symbols).trans (h.trans (sort_perm symbols').symm)
  have hmem : ∀ a ∈ sort symbols, a.table = table := by
    intro a ha
    exact htable a ((sort_perm symbols).mem_iff.1 ha)
  refine hperm.eq_of_pairwise ?_ (pairwise_sort symbols) (pairwise_sort symbols')
  intro a b ha hb hab hba
  have htext : a.text = b.text := le_antisymm (isLE_order_iff.1 hab) (isLE_order_iff.1 hba)
  exact eq_of_text_eq ((hmem a ha).trans (hmem b (hperm.mem_iff.2 hb)).symm) htext

end Symbol

/-! ## What handles tell -/

namespace Session.Keeps

/-- The slice behind a handle was interned for its text in its table. -/
theorem intern_mem_requests (h : st.Keeps requests) (ha : a ∈ st.handles) :
    .intern a.table a.slice ∈ requests ∧ a.slice.text = a.text := by
  obtain ⟨hmem, htext⟩ := Slice.mem_of_first? (h.current a ha).slice_eq
  exact ⟨mem_internedSlices_iff.1 hmem, htext⟩

theorem symbol_eq_iff (h : st.Keeps requests) (ha : a ∈ st.handles) (hb : b ∈ st.handles) :
    a.symbol = b.symbol ↔ a.table = b.table ∧ a.text = b.text := by
  rw [(h.current a ha).symbol_eq, (h.current b hb).symbol_eq, Symbol.mk.injEq]

theorem firstAddress_eq (h : st.Keeps requests) (ha : a ∈ st.handles) :
    firstAddress requests a.table a.text = some a.slice.address := by
  rw [firstAddress, (h.current a ha).slice_eq, Option.map_some]

theorem address_eq_iff (h : st.Keeps requests) (htexts : TextsApart requests)
    (ha : a ∈ st.handles) (hb : b ∈ st.handles) :
    a.slice.address = b.slice.address ↔ a.text = b.text ∧
      firstAddress requests a.table a.text = firstAddress requests b.table b.text := by
  rw [h.firstAddress_eq ha, h.firstAddress_eq hb, Option.some.injEq]
  constructor
  · -- A slice has the text of its handle, and at one address there is one text.
    intro haddress
    obtain ⟨harequest, hatext⟩ := h.intern_mem_requests ha
    obtain ⟨hbrequest, hbtext⟩ := h.intern_mem_requests hb
    have htext := htexts _ _ _ _ harequest hbrequest haddress
    exact ⟨by rw [← hatext, htext, hbtext], haddress⟩
  · exact And.right

/-- One table returns one address for one text. -/
theorem address_eq_iff_of_table_eq (h : st.Keeps requests) (htexts : TextsApart requests)
    (ha : a ∈ st.handles) (hb : b ∈ st.handles) (htable : a.table = b.table) :
    a.slice.address = b.slice.address ↔ a.symbol = b.symbol := by
  rw [h.address_eq_iff htexts ha hb, h.symbol_eq_iff ha hb]
  constructor
  · rintro ⟨htext, -⟩
    exact ⟨htable, htext⟩
  · rintro ⟨-, htext⟩
    exact ⟨htext, by rw [htable, htext]⟩

theorem table_eq_of_address_eq (h : st.Keeps requests) (htables : TablesApart requests)
    (ha : a ∈ st.handles) (hb : b ∈ st.handles) (haddress : a.slice.address = b.slice.address) :
    a.table = b.table :=
  htables _ _ _ _ (h.intern_mem_requests ha).1 (h.intern_mem_requests hb).1 haddress

theorem address_eq_iff_symbol_eq (h : st.Keeps requests) (htexts : TextsApart requests)
    (htables : TablesApart requests) (ha : a ∈ st.handles) (hb : b ∈ st.handles) :
    a.slice.address = b.slice.address ↔ a.symbol = b.symbol := by
  constructor
  · intro haddress
    have htable := h.table_eq_of_address_eq htables ha hb haddress
    exact (h.address_eq_iff_of_table_eq htexts ha hb htable).1 haddress
  · intro hsymbol
    have htable := ((h.symbol_eq_iff ha hb).1 hsymbol).1
    exact (h.address_eq_iff_of_table_eq htexts ha hb htable).2 hsymbol

theorem lookup_eq (h : st.Keeps requests) (ha : a ∈ st.handles) :
    (st.stored a.table).table.lookup a.text = some a.symbol ∧
      (st.stored a.table).pool.lookup a.text = some a.slice := by
  have hslice : (st.stored a.table).pool.lookup a.text = some a.slice :=
    ((h.holds a.table).lookup_eq a.text).trans (h.current a ha).slice_eq
  rcases (h.holds a.table).lookup_cases a.text with ⟨-, htable, -⟩ | ⟨-, -, hpool⟩
  · exact ⟨by rw [htable, (h.current a ha).symbol_eq], hslice⟩
  · rw [hpool] at hslice
    cases hslice

/-- The number of different symbols among handles is that of their tables and texts. -/
theorem countDistinct_eq (h : st.Keeps requests) {handles : List Handle}
    (hsub : handles ⊆ st.handles) :
    Symbol.countDistinct (handles.map (·.symbol)) =
      (handles.map fun a => (a.table, a.text)).dedup.length := by
  have hsymbols : ∀ a ∈ handles, ∀ b ∈ handles,
      a.symbol = b.symbol ↔ (a.table, a.text) = (b.table, b.text) := by
    intro a ha b hb
    rw [h.symbol_eq_iff (hsub ha) (hsub hb), Prod.mk.injEq]
  rw [Symbol.countDistinct, length_eraseDups]
  exact length_dedup_map_congr hsymbols

/-- So is the number of different addresses. -/
theorem length_dedup_addresses (h : st.Keeps requests) (htexts : TextsApart requests)
    (htables : TablesApart requests) {handles : List Handle} (hsub : handles ⊆ st.handles) :
    (handles.map (·.slice.address)).dedup.length =
      (handles.map fun a => (a.table, a.text)).dedup.length := by
  have haddresses : ∀ a ∈ handles, ∀ b ∈ handles,
      a.slice.address = b.slice.address ↔ (a.table, a.text) = (b.table, b.text) := by
    intro a ha b hb
    rw [h.address_eq_iff_symbol_eq htexts htables (hsub ha) (hsub hb),
      h.symbol_eq_iff (hsub ha) (hsub hb), Prod.mk.injEq]
  exact length_dedup_map_congr haddresses

theorem order_eq_iff (h : st.Keeps requests) (ha : a ∈ st.handles) (hb : b ∈ st.handles)
    (htable : a.table = b.table) : a.symbol.order b.symbol = .eq ↔ a.symbol = b.symbol := by
  rw [Symbol.order_eq_iff, h.symbol_eq_iff ha hb, (h.current a ha).symbol_eq,
    (h.current b hb).symbol_eq]
  exact (and_iff_right htable).symm

theorem sort_eq (h : st.Keeps requests) {handles handles' : List Handle}
    (hsub : handles ⊆ st.handles) (htable : ∀ a ∈ handles, a.table = k)
    (hperm : handles.Perm handles') :
    Symbol.sort (handles.map (·.symbol)) = Symbol.sort (handles'.map (·.symbol)) := by
  have hsymbols : ∀ symbol ∈ handles.map (·.symbol), symbol.table = k := by
    refine List.forall_mem_map.2 ?_
    intro a ha
    rw [(h.current a (hsub ha)).symbol_eq]
    exact htable a ha
  exact Symbol.sort_eq_of_perm hsymbols (hperm.map _)

end Session.Keeps

/-! ## Whole runs -/

/-- `st.AnswersTo requests`: as what is there after the requests, `st` tells apart what was interned
in different tables and what differs in its text, and nothing else. -/
structure Session.AnswersTo (requests : List Request) (st : Session) : Prop where
  /-- What a table returns for a text is the slice from which it interned the text first. -/
  slice_eq : ∀ a ∈ st.handles, firstInterned requests a.table a.text = some a.slice
  /-- Two symbols are equal if the same table returned them for the same text. -/
  symbol_eq_iff : ∀ a ∈ st.handles, ∀ b ∈ st.handles,
    a.symbol = b.symbol ↔ a.table = b.table ∧ a.text = b.text
  /-- Two addresses are equal if they are those from which one text was interned first. -/
  address_eq_iff : TextsApart requests → ∀ a ∈ st.handles, ∀ b ∈ st.handles,
    a.slice.address = b.slice.address ↔ a.text = b.text ∧
      firstAddress requests a.table a.text = firstAddress requests b.table b.text
  /-- Within one table the addresses show whether symbols are equal. -/
  address_eq_iff_of_table_eq : TextsApart requests → ∀ a ∈ st.handles, ∀ b ∈ st.handles,
    a.table = b.table → (a.slice.address = b.slice.address ↔ a.symbol = b.symbol)
  /-- Among all tables they show it if the tables intern texts of their own. -/
  address_eq_iff_symbol_eq : TextsApart requests → TablesApart requests →
    ∀ a ∈ st.handles, ∀ b ∈ st.handles,
      a.slice.address = b.slice.address ↔ a.symbol = b.symbol
  /-- A text is found if it was interned in that table. -/
  isSome_lookup_iff : ∀ k text,
    (((st.stored k).table.lookup text).isSome ↔ text ∈ internedTexts requests k) ∧
      (((st.stored k).pool.lookup text).isSome ↔ text ∈ internedTexts requests k)
  /-- What is found is what the table returned for the text, whenever it did. -/
  lookup_eq : ∀ a ∈ st.handles, (st.stored a.table).table.lookup a.text = some a.symbol ∧
    (st.stored a.table).pool.lookup a.text = some a.slice
  /-- The size of a table is the number of different texts that were interned in it. -/
  size_eq : ∀ k, (st.stored k).table.size = (internedTexts requests k).dedup.length ∧
    (st.stored k).pool.size = (internedTexts requests k).dedup.length
  /-- Looking up changes no table. -/
  stored_lookup : ∀ k text, (st.next (.lookup k text)).stored = st.stored
  /-- Among any handles there are as many symbols as pairs of a table and a text. -/
  countDistinct_eq : ∀ handles, handles ⊆ st.handles →
    Symbol.countDistinct (handles.map (·.symbol)) =
      (handles.map fun a => (a.table, a.text)).dedup.length
  /-- There are as many addresses, if the tables intern texts of their own. -/
  length_dedup_addresses : TextsApart requests → TablesApart requests →
    ∀ handles, handles ⊆ st.handles → (handles.map (·.slice.address)).dedup.length =
      (handles.map fun a => (a.table, a.text)).dedup.length
  /-- Within one table the order tells symbols apart. -/
  order_eq_iff : ∀ a ∈ st.handles, ∀ b ∈ st.handles, a.table = b.table →
    (a.symbol.order b.symbol = .eq ↔ a.symbol = b.symbol)
  /-- Sorting symbols brings them into ascending order. -/
  sort_ascending : ∀ handles : List Handle,
    (Symbol.sort (handles.map (·.symbol))).Perm (handles.map (·.symbol)) ∧
      (Symbol.sort (handles.map (·.symbol))).Pairwise fun a b => (a.order b).isLE = true
  /-- Symbols of one table are sorted in one way, however they were ordered before. -/
  sort_eq : ∀ k handles handles', handles ⊆ st.handles → (∀ a ∈ handles, a.table = k) →
    handles.Perm handles' →
      Symbol.sort (handles.map (·.symbol)) = Symbol.sort (handles'.map (·.symbol))

/-- However many tables intern and look up texts in whatever order, each goes on finding what it
interned first, and within a table symbols are told apart exactly by their texts. They are told
apart across tables if no text is interned in two of them from one place. -/
theorem answersTo_run (requests : List Request) :
    (Session.run requests).AnswersTo requests := by
  have hkeeps := Session.keeps_run requests
  constructor
  case slice_eq =>
    intro a ha
    exact (hkeeps.current a ha).slice_eq
  case symbol_eq_iff =>
    intro a ha b hb
    exact hkeeps.symbol_eq_iff ha hb
  case address_eq_iff =>
    intro htexts a ha b hb
    exact hkeeps.address_eq_iff htexts ha hb
  case address_eq_iff_of_table_eq =>
    intro htexts a ha b hb htable
    exact hkeeps.address_eq_iff_of_table_eq htexts ha hb htable
  case address_eq_iff_symbol_eq =>
    intro htexts htables a ha b hb
    exact hkeeps.address_eq_iff_symbol_eq htexts htables ha hb
  case isSome_lookup_iff =>
    intro k text
    rcases (hkeeps.holds k).lookup_cases text with
      ⟨hmem, htable, slice, hpool⟩ | ⟨hmem, htable, hpool⟩
    · simp [htable, hpool, hmem]
    · simp [htable, hpool, hmem]
  case lookup_eq =>
    intro a ha
    exact hkeeps.lookup_eq ha
  case size_eq =>
    intro k
    have hsize := (hkeeps.holds k).size_eq
    exact ⟨hsize, (hkeeps.holds k).stores.size_eq.trans hsize⟩
  case stored_lookup =>
    intro k text
    simp only [Session.next]
    split <;> rfl
  case countDistinct_eq =>
    intro handles hsub
    exact hkeeps.countDistinct_eq hsub
  case length_dedup_addresses =>
    intro htexts htables handles hsub
    exact hkeeps.length_dedup_addresses htexts htables hsub
  case order_eq_iff =>
    intro a ha b hb htable
    exact hkeeps.order_eq_iff ha hb htable
  case sort_ascending =>
    intro handles
    exact ⟨Symbol.sort_perm _, Symbol.pairwise_sort _⟩
  case sort_eq =>
    intro k handles handles' hsub htable hperm
    exact hkeeps.sort_eq hsub htable hperm

/-! ### One text in two tables -/

/-- The table 0 interns `p` twice, from two places, and the empty text between. Then it looks up
`p`, and the table 1 interns `p` and looks up the empty text. -/
def sharedText : List Request :=
  [.intern 0 ⟨16, "p"⟩, .intern 0 ⟨1, ""⟩, .intern 0 ⟨32, "p"⟩, .lookup 0 "p", .intern 1 ⟨48, "p"⟩,
    .lookup 1 ""]

/-- Three of the handles are the first `p`, and the `p` of the other table is another symbol,
although the order does not tell them apart. -/
theorem answersTo_run_sharedText :
    TextsApart sharedText ∧ TablesApart sharedText ∧
      (Session.run sharedText).handles.map (·.slice.address) = [16, 1, 16, 16, 48] ∧
      Symbol.countDistinct ((Session.run sharedText).handles.map (·.symbol)) = 3 ∧
      ((Session.run sharedText).handles.map (·.slice.address)).dedup.length = 3 ∧
      ((Session.run sharedText).stored 0).table.size = 2 ∧
      ((Session.run sharedText).stored 1).table.lookup "" = none ∧
      (⟨0, "p"⟩ : Symbol).order ⟨1, "p"⟩ = .eq := by
  have hapart : ∀ k value l value', .intern k value ∈ sharedText → .intern l value' ∈ sharedText →
      value.address = value'.address → value.text = value'.text ∧ k = l := by
    intro k value l value' hvalue hvalue' haddress
    simp only [sharedText, List.mem_cons, Request.intern.injEq, reduceCtorEq, List.not_mem_nil,
      or_false, false_or] at hvalue hvalue'
    rcases hvalue with ⟨rfl, rfl⟩ | ⟨rfl, rfl⟩ | ⟨rfl, rfl⟩ | ⟨rfl, rfl⟩ <;>
      rcases hvalue' with ⟨rfl, rfl⟩ | ⟨rfl, rfl⟩ | ⟨rfl, rfl⟩ | ⟨rfl, rfl⟩ <;>
      simp at haddress ⊢
  have htexts : TextsApart sharedText := fun k value l value' hvalue hvalue' haddress =>
    (hapart k value l value' hvalue hvalue' haddress).1
  have htables : TablesApart sharedText := fun k value l value' hvalue hvalue' haddress =>
    (hapart k value l value' hvalue hvalue' haddress).2
  have hanswers := answersTo_run sharedText
  have hhandles : (Session.run sharedText).handles.map (fun a => (a.table, a.text)) =
      [(0, "p"), (0, ""), (0, "p"), (0, "p"), (1, "p")] := by
    decide
  refine ⟨htexts, htables, by decide, ?_, ?_, ?_, ?_, by decide⟩
  · rw [hanswers.countDistinct_eq _ (List.Subset.refl _), hhandles]
    decide
  · rw [hanswers.length_dedup_addresses htexts htables _ (List.Subset.refl _), hhandles]
    decide
  · rw [(hanswers.size_eq 0).1]
    decide
  · rw [← Option.not_isSome_iff_eq_none, (hanswers.isSome_lookup_iff 1 "").1]
    decide

/-! ### One slice in two tables -/

/-- Two tables intern `p` from one place. -/
def sharedSlice : List Request :=
  [.intern 0 ⟨16, "p"⟩, .intern 1 ⟨16, "p"⟩]

/-- Different texts stand apart and nobody interns the empty text, and still the two tables return
slices that cannot be told apart. -/
theorem address_eq_run_sharedSlice :
    TextsApart sharedSlice ∧
      (∀ k l, "" ∈ internedTexts sharedSlice k → "" ∈ internedTexts sharedSlice l → k = l) ∧
      ¬ ∀ a ∈ (Session.run sharedSlice).handles, ∀ b ∈ (Session.run sharedSlice).handles,
        (a.slice.address = b.slice.address ↔ a.table = b.table ∧ a.text = b.text) := by
  have hmem : ∀ k value, .intern k value ∈ sharedSlice → value.text = "p" := by
    intro k value hvalue
    simp only [sharedSlice, List.mem_cons, Request.intern.injEq, List.not_mem_nil, or_false]
      at hvalue
    rcases hvalue with ⟨-, rfl⟩ | ⟨-, rfl⟩ <;> rfl
  refine ⟨?_, ?_, ?_⟩
  · intro k value l value' hvalue hvalue' _
    rw [hmem k value hvalue, hmem l value' hvalue']
  · intro k l hk _
    obtain ⟨value, hvalue, hempty⟩ := List.mem_map.1 hk
    rw [hmem k value (mem_internedSlices_iff.1 hvalue)] at hempty
    exact absurd hempty (by decide)
  · have hhandles : (Session.run sharedSlice).handles =
        [⟨0, "p", ⟨16, "p"⟩, ⟨0, "p"⟩⟩, ⟨1, "p", ⟨16, "p"⟩, ⟨1, "p"⟩⟩] := rfl
    intro h
    rw [hhandles] at h
    have hsame := (h _ (List.mem_cons_self ..) _ (List.mem_cons_of_mem _ (List.mem_cons_self ..))).1
      rfl
    exact absurd hsame.1 (by decide)

end Nominal
