import Mathlib.Data.List.ModifyLast
import Mathlib.Data.List.Nodup
import Sprocket.Toml.Value

/-!
# Changing tables

What is read from a document is changed one value at a time, deep in the tables read so far. A
change of that kind leaves all keys of a table alone but one, and there it changes a table or the
last table of an array.

* `Entries.textAt?`, `elements`: the text under a key, and the tables of an array of tables;
* `Proper`, `Tidy`: tables without a key given twice, and without tables where there may be none;
* `Under`: a change of the value under one key, given what it does to the last table there;
* `under_addDotted`, `under_changeAt`, `under_changeWithin`: such changes;
* `listAt`, `Under.listAt`, `listAt_openElement`, `listAt_addNew`: what they do to the tables under
  a key.
-/

namespace Sprocket.Toml

/-- The text under a key. -/
def Entries.textAt? (es : Entries) (key : String) : Option String :=
  match es.get? key with
  | some (.string text) => some text
  | _ => none

/-- The entries of a table. -/
def Value.entries : Value → Entries
  | .table _ es => es
  | _ => []

/-- The tables of an array made by headers. -/
def elements : Option Value → List Entries
  | some (.array true items) => items.map Value.entries
  | _ => []

/-- A value that is no text and holds no tables, and no arrays in arrays. -/
def Flat : Value → Prop
  | .string _ => False
  | .table .. => False
  | .array ofTables items => ofTables = false ∧ ∀ item ∈ items,
    match item with
    | .array .. => False
    | .table .. => False
    | _ => True
  | _ => True

/-! ### Keys -/

namespace Entries

theorem get?_cons (e : String × Value) (es : Entries) (key : String) :
    get? (e :: es) key = if e.1 = key then some e.2 else get? es key := by
  by_cases h : e.1 = key <;> simp [get?, h]

theorem get?_append (es : Entries) (key : String) (v : Value) (key' : String) :
    get? (es ++ [(key, v)]) key' =
      (get? es key').or (if key = key' then some v else none) := by
  induction es with
  | nil => by_cases h : key = key' <;> simp [get?, h]
  | cons e es ih =>
    rw [List.cons_append, get?_cons, get?_cons, ih]
    split <;> simp

theorem get?_replace (es : Entries) (key : String) (v : Value) (key' : String) :
    (Entries.replace es key v).get? key' =
      if key = key' then (es.get? key').map fun _ => v else es.get? key' := by
  induction es with
  | nil => simp [replace, get?]
  | cons e es ih =>
    have hcons : replace (e :: es) key v =
        (if e.1 == key then (key, v) else e) :: Entries.replace es key v := rfl
    rw [hcons, get?_cons, get?_cons, ih]
    by_cases he : e.1 = key
    · by_cases hkey : key = key' <;> simp [he, hkey]
    · by_cases hkey : key = key'
      · subst hkey
        simp [he]
      · simp [he, hkey]

/-- A key that is set has its value, and the others keep theirs. -/
theorem get?_set (es : Entries) (key : String) (v : Value) (key' : String) :
    (es.set key v).get? key' = if key = key' then some v else es.get? key' := by
  unfold set
  split
  next h =>
    rw [get?_replace]
    split
    next hkey =>
      obtain ⟨w, hw⟩ := Option.isSome_iff_exists.1 h
      rw [← hkey, hw, Option.map_some]
    next => rfl
  next h =>
    rw [get?_append]
    split
    next hkey =>
      rw [← hkey, Option.not_isSome_iff_eq_none.1 h, Option.none_or]
    next => rw [Option.or_none]

/-- The keys of a table. -/
def keys (es : Entries) : List String := es.map Prod.fst

/-- No key is given twice. -/
def Proper (es : Entries) : Prop := es.keys.Nodup

theorem get?_eq_none_iff {es : Entries} {key : String} : es.get? key = none ↔ key ∉ es.keys := by
  induction es with
  | nil => simp [get?, keys]
  | cons e es ih =>
    have hkeys : keys (e :: es) = e.1 :: keys es := rfl
    rw [get?_cons, hkeys, List.mem_cons, not_or, ← ih]
    by_cases he : e.1 = key
    · simp [he]
    · simp [he, Ne.symm he]

theorem proper_append {es : Entries} (h : es.Proper) {key : String} (hkey : es.get? key = none)
    (v : Value) : Proper (es ++ [(key, v)]) := by
  have hnot := get?_eq_none_iff.1 hkey
  rw [Proper, keys, List.map_append]
  exact List.Nodup.append h (List.nodup_singleton _) (by simpa [keys] using hnot)

theorem proper_set {es : Entries} (h : es.Proper) (key : String) (v : Value) :
    (es.set key v).Proper := by
  unfold set
  split
  · have hkeys : (Entries.replace es key v).keys = es.keys := by
      rw [keys, keys, replace, List.map_map]
      refine List.map_congr_left fun e _ => ?_
      by_cases he : e.1 = key <;> simp [he]
    rwa [Proper, hkeys]
  next hnone => exact proper_append h (Option.not_isSome_iff_eq_none.1 hnone) v

/-- In a table without a key given twice, an entry is the one that is found. -/
theorem mem_iff_get? {es : Entries} (h : es.Proper) {key : String} {v : Value} :
    (key, v) ∈ es ↔ es.get? key = some v := by
  induction es with
  | nil => simp [get?]
  | cons e es ih =>
    obtain ⟨hnot, hrest⟩ := List.nodup_cons.1 h
    rw [get?_cons, List.mem_cons]
    by_cases he : e.1 = key
    · have hfresh : (key, v) ∉ es := fun hmem => hnot (List.mem_map.2 ⟨_, hmem, he.symm⟩)
      rw [if_pos he, Option.some.injEq]
      constructor
      · rintro (rfl | hmem)
        · rfl
        · exact absurd hmem hfresh
      · rintro rfl
        exact .inl (Prod.ext he.symm rfl)
    · rw [if_neg he, ← ih hrest]
      constructor
      · rintro (rfl | hmem)
        · exact absurd rfl he
        · exact hmem
      · exact .inr

end Entries

open Entries

/-- A new key is added to a table that does not have it. -/
theorem addNew_eq_some {es es' : Entries} {key : String} {v : Value}
    (h : es.addNew key v = some es') :
    es.get? key = none ∧ es'.get? key = some v ∧
      (∀ key', key' ≠ key → es'.get? key' = es.get? key') ∧ (es.Proper → es'.Proper) := by
  unfold addNew at h
  split at h
  · cases h
  next hnone =>
    have hnone := Option.not_isSome_iff_eq_none.1 hnone
    obtain rfl := Option.some.inj h
    refine ⟨hnone, by simp [get?_append, hnone], fun key' hne => ?_, fun hes => ?_⟩
    · simp [get?_append, hne.symm]
    · exact proper_append hes hnone v

/-! ### The last table of an array -/

/-- An array of tables holds tables, and any other array is flat. -/
def Clean (v : Option Value) : Prop :=
  ∀ ofTables items, v = some (.array ofTables items) →
    if ofTables then ∀ item ∈ items, ∃ kind es, item = .table kind es
    else Flat (.array ofTables items)

/-- The last table of an array changes, and no other. -/
theorem changeLast_eq_some {change : Entries → Option Entries} {items items' : List Value}
    (h : changeLast change items = some items') :
    ∃ before kind es es', items = before ++ [.table kind es] ∧ change es = some es' ∧
      items' = before ++ [.table kind es'] := by
  induction items using changeLast.induct generalizing items' with
  | case1 => cases h
  | case2 kind es =>
    obtain ⟨es', hes', rfl⟩ := Option.map_eq_some_iff.1 h
    exact ⟨[], kind, es, es', rfl, hes', rfl⟩
  | case3 v rest hlast ih =>
    have hrest : changeLast change (v :: rest) = (changeLast change rest).map (v :: ·) := by
      rw [changeLast]
      intro kind es heq
      exact hlast kind es heq
    rw [hrest] at h
    obtain ⟨rest', hrest', rfl⟩ := Option.map_eq_some_iff.1 h
    obtain ⟨before, kind, es, es', rfl, hes', rfl⟩ := ih hrest'
    exact ⟨v :: before, kind, es, es', rfl, hes', rfl⟩

/-- The value under one key of a table changes: it is no text before and after, and if it is an
array of tables, the last of them changes in a given way. -/
structure Under (key : String) (R : Entries → Entries → Prop) (es es' : Entries) : Prop where
  others : ∀ key', key' ≠ key → es'.get? key' = es.get? key'
  before : es.textAt? key = none
  after : es'.textAt? key = none
  proper : es.Proper → es'.Proper
  clean : Clean (es.get? key) → Clean (es'.get? key)
  last : (elements (es.get? key) = [] ∧ elements (es'.get? key) = []) ∨
    ∃ init sub sub', elements (es.get? key) = init ++ [sub] ∧
      elements (es'.get? key) = init ++ [sub'] ∧ R sub sub'

/-- A table in the place of none, or of another table. -/
theorem under_of_table {key : String} {R : Entries → Entries → Prop} {es : Entries}
    (h : es.get? key = none ∨ ∃ kind sub, es.get? key = some (.table kind sub)) (kind : TableKind)
    (sub : Entries) : Under key R es (es.set key (.table kind sub)) := by
  have hset : (es.set key (.table kind sub)).get? key = some (.table kind sub) := by
    rw [get?_set, if_pos rfl]
  refine ⟨fun key' hne => by rw [get?_set, if_neg hne.symm], ?_, by rw [textAt?, hset],
    fun hes => proper_set hes _ _, fun _ ofTables items heq => ?_, .inl ⟨?_, by rw [hset]; rfl⟩⟩
  · rcases h with hnone | ⟨kind', sub', hsome⟩
    · rw [textAt?, hnone]
    · rw [textAt?, hsome]
  · rw [hset] at heq
    cases heq
  · rcases h with hnone | ⟨kind', sub', hsome⟩
    · rw [hnone]
      rfl
    · rw [hsome]
      rfl

/-- A change of the last table of an array. -/
theorem under_of_changeLast {key : String} {change : Entries → Option Entries} {es : Entries}
    {items items' : List Value} (h : es.get? key = some (.array true items))
    (hchange : changeLast change items = some items') :
    Under key (fun sub sub' => change sub = some sub') es (es.set key (.array true items')) := by
  obtain ⟨before, kind, sub, sub', rfl, hsub, rfl⟩ := changeLast_eq_some hchange
  have hset : (es.set key (.array true (before ++ [.table kind sub']))).get? key =
      some (.array true (before ++ [.table kind sub'])) := by rw [get?_set, if_pos rfl]
  refine ⟨fun key' hne => by rw [get?_set, if_neg hne.symm], by rw [textAt?, h],
    by rw [textAt?, hset], fun hes => proper_set hes _ _, fun hclean ofTables items heq => ?_,
    .inr ⟨before.map Value.entries, sub, sub', ?_, ?_, hsub⟩⟩
  · rw [hset] at heq
    cases heq
    have hitems := hclean true _ h
    rw [if_pos rfl] at hitems ⊢
    rw [List.forall_mem_append] at hitems ⊢
    refine ⟨hitems.1, fun item hitem => ?_⟩
    rw [List.mem_singleton.1 hitem]
    exact ⟨kind, sub', rfl⟩
  · rw [h]
    simp [elements, Value.entries]
  · rw [hset]
    simp [elements, Value.entries]

theorem Under.mono {key : String} {R S : Entries → Entries → Prop} {es es' : Entries}
    (h : Under key R es es') (hRS : ∀ sub sub', R sub sub' → S sub sub') : Under key S es es' :=
  ⟨h.others, h.before, h.after, h.proper, h.clean, h.last.imp_right
    fun ⟨init, sub, sub', hes, hes', hR⟩ => ⟨init, sub, sub', hes, hes', hRS _ _ hR⟩⟩

/-! ### Changes on the way to a table -/

/-- A value under a dotted key of several parts goes into a table under the first part. -/
theorem under_addDotted {key step : String} {v : Value} {path : List String} {es es' : Entries}
    (h : addDotted key v (step :: path) es = some es') :
    Under step (fun sub sub' => path ≠ [] ∧ addDotted key v path sub = some sub') es es' := by
  rw [addDotted] at h
  split at h
  next hnone =>
    obtain ⟨sub, -, rfl⟩ := Option.map_eq_some_iff.1 h
    exact under_of_table (.inl hnone) _ _
  next kind sub hsome =>
    split at h
    · obtain ⟨sub', -, rfl⟩ := Option.map_eq_some_iff.1 h
      exact under_of_table (.inr ⟨kind, sub, hsome⟩) _ _
    · cases h
  next items hsome =>
    split at h
    · cases h
    next hpath =>
      obtain ⟨items', hitems, rfl⟩ := Option.map_eq_some_iff.1 h
      exact (under_of_changeLast hsome hitems).mono fun _ _ hsub => ⟨hpath, hsub⟩
  next => cases h

/-- What a header of several parts names lies in a table under the first part. -/
theorem under_changeAt {change : Option Value → Option Value} {step next : String}
    {path : List String} {es es' : Entries}
    (h : changeAt change (step :: next :: path) es = some es') :
    Under step (fun sub sub' => changeAt change (next :: path) sub = some sub') es es' := by
  rw [changeAt] at h
  · split at h
    next hnone =>
      obtain ⟨sub, -, rfl⟩ := Option.map_eq_some_iff.1 h
      exact under_of_table (.inl hnone) _ _
    next kind sub hsome =>
      split at h
      · cases h
      · obtain ⟨sub', -, rfl⟩ := Option.map_eq_some_iff.1 h
        exact under_of_table (.inr ⟨kind, sub, hsome⟩) _ _
    next items hsome =>
      obtain ⟨items', hitems, rfl⟩ := Option.map_eq_some_iff.1 h
      exact under_of_changeLast hsome hitems
    next => cases h
  · simp

/-- A table that a header has opened lies under the first part of the header. -/
theorem under_changeWithin {change : Entries → Option Entries} {step : String} {path : List String}
    {es es' : Entries} (h : changeWithin change (step :: path) es = some es') :
    Under step (fun sub sub' => changeWithin change path sub = some sub') es es' := by
  rw [changeWithin] at h
  split at h
  next kind sub hsome =>
    obtain ⟨sub', -, rfl⟩ := Option.map_eq_some_iff.1 h
    exact under_of_table (.inr ⟨kind, sub, hsome⟩) _ _
  next items hsome =>
    obtain ⟨items', hitems, rfl⟩ := Option.map_eq_some_iff.1 h
    exact under_of_changeLast hsome hitems
  next => cases h

/-! ### The tables under a key -/

/-- What is seen of the tables under a key. -/
def listAt {β : Type} (key : String) (view : Entries → β) (es : Entries) : List β :=
  (elements (es.get? key)).map view

/-- A table without a key given twice, with nothing but tables of a kind under a key. -/
structure Tidy (key : String) (P : Entries → Prop) (es : Entries) : Prop where
  proper : es.Proper
  clean : Clean (es.get? key)
  all : ∀ sub ∈ elements (es.get? key), P sub

theorem tidy_nil (key : String) (P : Entries → Prop) : Tidy key P [] := by
  refine ⟨List.nodup_nil, fun ofTables items h => ?_, ?_⟩
  · cases h
  · simp [elements, get?]

section

variable {β : Type} {key : String} {view : Entries → β} {P : Entries → Prop} {es es' : Entries}

/-- Nothing is seen to change, and a tidy table stays tidy, where the tables under a key do. -/
theorem Tidy.of_eq (hproper : es.Proper → es'.Proper) (h : es'.get? key = es.get? key)
    (ht : Tidy key P es) : Tidy key P es' :=
  ⟨hproper ht.proper, h ▸ ht.clean, h ▸ ht.all⟩

/-- No text changes. -/
theorem Under.textAt? {R : Entries → Entries → Prop} {step : String} (h : Under step R es es')
    (key : String) : es'.textAt? key = es.textAt? key := by
  by_cases hkey : key = step
  · rw [hkey, h.before, h.after]
  · rw [Entries.textAt?, Entries.textAt?, h.others key hkey]

variable (view) in
/-- The tables under another key stay. -/
theorem Under.listAt_of_ne {R : Entries → Entries → Prop} {step : String} (h : Under step R es es')
    (hne : key ≠ step) :
    listAt key view es' = listAt key view es ∧ (Tidy key P es → Tidy key P es') := by
  have hsame := h.others key hne
  exact ⟨by rw [listAt, listAt, hsame], Tidy.of_eq h.proper hsame⟩

/-- The last of the tables under the key changes as it is seen to. -/
theorem Under.listAt {f : β → β}
    (h : Under key (fun sub sub' => view sub' = f (view sub) ∧ (P sub → P sub')) es es') :
    listAt key view es' = (listAt key view es).modifyLast f ∧
      (Tidy key P es → Tidy key P es') := by
  rcases h.last with ⟨hes, hes'⟩ | ⟨init, sub, sub', hes, hes', hview, hP⟩
  · refine ⟨by rw [Toml.listAt, Toml.listAt, hes, hes']; rfl, fun ht => ⟨h.proper ht.proper,
      h.clean ht.clean, by simp [hes']⟩⟩
  · refine ⟨?_, fun ht => ⟨h.proper ht.proper, h.clean ht.clean, ?_⟩⟩
    · rw [Toml.listAt, Toml.listAt, hes, hes', List.map_append, List.map_append, List.map_singleton,
        List.map_singleton, List.modifyLast_concat, hview]
    · have hall := ht.all
      rw [hes, List.forall_mem_append, List.forall_mem_singleton] at hall
      rw [hes', List.forall_mem_append, List.forall_mem_singleton]
      exact ⟨hall.1, hP hall.2⟩

/-- Nothing is seen to change where the last of the tables under the key is not. -/
theorem Under.listAt_eq
    (h : Under key (fun sub sub' => view sub' = view sub ∧ (P sub → P sub')) es es') :
    Toml.listAt key view es' = Toml.listAt key view es ∧ (Tidy key P es → Tidy key P es') := by
  obtain ⟨hlist, htidy⟩ := h.listAt (f := id)
  refine ⟨?_, htidy⟩
  rw [hlist]
  rcases List.eq_nil_or_concat (Toml.listAt key view es) with hnil | ⟨init, last, hconcat⟩
  · rw [hnil]
    rfl
  · rw [hconcat, List.concat_eq_append, List.modifyLast_concat, id]

/-- A header of a table among others puts one after those there are. -/
theorem openElement_eq_some {old : Option Value} {v : Value} (h : openElement old = some v) :
    ∃ items, v = .array true (items ++ [.table .header []]) ∧
      ((old = none ∧ items = []) ∨ old = some (.array true items)) := by
  unfold openElement at h
  split at h
  · exact ⟨[], (Option.some.inj h).symm, .inl ⟨rfl, rfl⟩⟩
  next items => exact ⟨items, (Option.some.inj h).symm, .inr rfl⟩
  · cases h

variable (view) in
/-- A new table is opened after those under the key. -/
theorem listAt_openElement {v : Value} (h : openElement (es.get? key) = some v) (hP : P []) :
    listAt key view (es.set key v) = listAt key view es ++ [view []] ∧
      (Tidy key P es → Tidy key P (es.set key v)) := by
  have hset : (es.set key v).get? key = some v := by rw [get?_set, if_pos rfl]
  obtain ⟨items, rfl, hold⟩ := openElement_eq_some h
  have helements : elements (some (.array true (items ++ [.table .header []]))) =
      elements (es.get? key) ++ [[]] := by
    rcases hold with ⟨hnone, rfl⟩ | hsome
    · rw [hnone]
      rfl
    · rw [hsome]
      simp [elements, Value.entries]
  have hclean : Clean (es.get? key) →
      Clean (some (.array true (items ++ [.table .header []]))) := by
    rintro hclean ofTables items' heq
    cases heq
    rw [if_pos rfl, List.forall_mem_append, List.forall_mem_singleton]
    refine ⟨?_, .header, [], rfl⟩
    rcases hold with ⟨-, rfl⟩ | hsome
    · simp
    · simpa only [if_pos] using hclean true items hsome
  refine ⟨?_, fun ht => ⟨proper_set ht.proper _ _, ?_, ?_⟩⟩
  · rw [listAt, listAt, hset, helements, List.map_append, List.map_singleton]
  · rw [hset]
    exact hclean ht.clean
  · rw [hset, helements, List.forall_mem_append, List.forall_mem_singleton]
    exact ⟨ht.all, hP⟩

/-- A value without tables that is added leaves the tables under a key alone. -/
theorem listAt_addNew {step : String} {v : Value} (h : es.addNew step v = some es')
    (hv : ∀ items, v ≠ .array true items) (hclean : Clean (some v)) :
    listAt key view es' = listAt key view es ∧ (Tidy key P es → Tidy key P es') := by
  obtain ⟨hnone, hsome, hothers, hproper⟩ := addNew_eq_some h
  by_cases hkey : key = step
  · subst hkey
    have helements : elements (some v) = [] := by
      unfold elements
      split
      next items heq => exact absurd (Option.some.inj heq) (hv items)
      next => rfl
    refine ⟨by rw [listAt, listAt, hnone, hsome, helements]; rfl,
      fun ht => ⟨hproper ht.proper, ?_, ?_⟩⟩
    · rwa [hsome]
    · rw [hsome, helements]
      simp
  · have hsame := hothers key hkey
    exact ⟨by rw [listAt, listAt, hsame], Tidy.of_eq hproper hsame⟩

end

end Sprocket.Toml
