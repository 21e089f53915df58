import Sprocket.Proofs.Calls

/-!
# Names in quoted form

A routine is written as a call names it, every part between quotes, and then split as the names of a
manifest are. What comes out is the name that was written exactly if there is no quote in it, and no
dot in the part that comes first.

* `doubled`, `Bare`: a part as it stands between quotes, and the names that come out unchanged;
* `not_mem_of_splitName`: the schema that is split off holds no dot;
* `splitName_target`: what a name without dots in its first part is split into;
* `splitName_target_eq_iff`: which names come out unchanged.
-/

namespace Sprocket.Sql

open Text (trim)

/-- A part of a name as it stands between quotes. -/
def doubled (part : String) : String := String.ofList (escapeQuotes part.toList)

/-- The part of a name that is written first. -/
def leading (schema : Option String) (name : String) : String := schema.getD name

/-- No part of a name holds a quote, and the first one holds no dot. -/
structure Bare (schema : Option String) (name : String) : Prop where
  undotted : '.' ∉ (leading schema name).toList
  schema : ∀ s ∈ schema, '"' ∉ s.toList
  name : '"' ∉ name.toList

instance (schema : Option String) (name : String) : Decidable (Bare schema name) :=
  decidable_of_iff ('.' ∉ (leading schema name).toList ∧ (∀ s ∈ schema, '"' ∉ s.toList) ∧
      '"' ∉ name.toList)
    ⟨fun h => ⟨h.1, h.2.1, h.2.2⟩, fun h => ⟨h.undotted, h.schema, h.name⟩⟩

/-! ### Parts -/

theorem escapeQuotes_cons (c : Char) (s : List Char) :
    escapeQuotes (c :: s) = (if c = '"' then ['"', '"'] else [c]) ++ escapeQuotes s := rfl

theorem mem_escapeQuotes {c : Char} {s : List Char} : c ∈ escapeQuotes s ↔ c ∈ s := by
  induction s with
  | nil => simp [escapeQuotes]
  | cons a r ih =>
    rw [escapeQuotes_cons, List.mem_append, ih, List.mem_cons]
    refine or_congr_left ?_
    split
    next ha => simp [ha]
    next => exact List.mem_singleton

theorem length_le_length_escapeQuotes (s : List Char) : s.length ≤ (escapeQuotes s).length := by
  induction s with
  | nil => exact Nat.zero_le _
  | cons a r ih =>
    rw [escapeQuotes_cons, List.length_append, List.length_cons]
    split <;> simp only [List.length_cons, List.length_nil] <;> omega

/-- Only a text without quotes stands between quotes as it is. -/
theorem escapeQuotes_eq_self_iff {s : List Char} : escapeQuotes s = s ↔ '"' ∉ s := by
  induction s with
  | nil => simp [escapeQuotes]
  | cons a r ih =>
    rw [escapeQuotes_cons]
    by_cases ha : a = '"'
    · have hlonger := length_le_length_escapeQuotes r
      have hne : '"' :: escapeQuotes r ≠ r := fun h => by
        have hlength := congrArg List.length h
        rw [List.length_cons] at hlength
        omega
      simp [ha, hne]
    · simp [ha, ih, Ne.symm ha]

theorem doubled_eq_self_iff {part : String} : doubled part = part ↔ '"' ∉ part.toList := by
  rw [doubled, ← String.toList_inj, String.toList_ofList, escapeQuotes_eq_self_iff]

/-- The quotes around a part are taken off; those inside stay doubled. -/
theorem unquote_quoteChars (s : List Char) : unquote (quoteChars s) = escapeQuotes s := by
  have htrim : trim (quoteChars s) = quoteChars s :=
    Text.trim_append (s := '"' :: escapeQuotes s) (t := ['"']) rfl rfl (List.cons_ne_nil _ _)
  rw [unquote, htrim]
  simp [quoteChars]

theorem mem_of_mem_unquote {part : List Char} {c : Char} (h : c ∈ unquote part) : c ∈ part := by
  refine Text.mem_of_mem_trim ?_
  unfold unquote at h
  split at h
  next r hr =>
    rw [hr]
    split at h
    · exact List.mem_cons_of_mem _ (List.dropLast_subset _ h)
    · exact h
  · exact h

/-! ### Splitting -/

theorem splitName_fst_eq_none_iff {text : String} :
    (splitName text).1 = none ↔ '.' ∉ text.toList := by
  rw [← Text.splitFirst_eq_none_iff]
  unfold splitName
  cases Text.splitFirst '.' text.toList <;> simp

/-- The schema that is split off holds no dot. -/
theorem not_mem_of_splitName {text schema : String} (h : (splitName text).1 = some schema) :
    '.' ∉ schema.toList := by
  unfold splitName at h
  cases hsplit : Text.splitFirst '.' text.toList with
  | none => simp [hsplit] at h
  | some parts =>
    simp only [hsplit, Option.some.injEq] at h
    rw [← h, String.toList_ofList]
    exact fun hdot => (Text.splitFirst_eq_some_iff.1 hsplit).2 (mem_of_mem_unquote hdot)

theorem toList_quote (name : String) : (quote name).toList = quoteChars name.toList :=
  String.toList_ofList

theorem dot_mem_quoteChars {s : List Char} : '.' ∈ quoteChars s ↔ '.' ∈ s := by
  simp [quoteChars, mem_escapeQuotes]

variable {schema : Option String} {name : String}

/-- A name whose first part holds no dot is split between its parts. -/
theorem splitName_target (h : '.' ∉ (leading schema name).toList) :
    splitName (target schema name) = (schema.map doubled, doubled name) := by
  cases schema with
  | none =>
    have hnone : Text.splitFirst '.' (quoteChars name.toList) = none :=
      Text.splitFirst_eq_none_iff.2 (dot_mem_quoteChars.not.2 h)
    simp only [splitName, target, toList_quote, hnone, unquote_quoteChars, Option.map_none, doubled]
  | some s =>
    have hsplit : Text.splitFirst '.' (quoteChars s.toList ++ '.' :: quoteChars name.toList) =
        some (quoteChars s.toList, quoteChars name.toList) :=
      Text.splitFirst_eq_some_iff.2 ⟨rfl, dot_mem_quoteChars.not.2 h⟩
    have htext : (target (some s) name).toList =
        quoteChars s.toList ++ '.' :: quoteChars name.toList := by
      simp [target, toList_quote]
    simp only [splitName, htext, hsplit, unquote_quoteChars, Option.map_some, doubled]

/-- A name whose first part holds a dot is not split between its parts, whatever becomes of them. -/
theorem undotted_of_splitName {f : String → String}
    (hf : ∀ s, '.' ∈ s.toList → '.' ∈ (f s).toList)
    (h : (splitName (target schema name)).1 = schema.map f) :
    '.' ∉ (leading schema name).toList := by
  cases schema with
  | none =>
    rw [Option.map_none, splitName_fst_eq_none_iff, target, toList_quote, dot_mem_quoteChars] at h
    exact h
  | some s => exact fun hs => not_mem_of_splitName h (hf s hs)

/-- A name comes out unchanged exactly if it is bare. -/
theorem splitName_target_eq_iff :
    splitName (target schema name) = (schema, name) ↔ Bare schema name := by
  constructor
  · intro h
    have hundotted : '.' ∉ (leading schema name).toList :=
      undotted_of_splitName (f := id) (fun _ => id) (by rw [h, Option.map_id_fun, id])
    rw [splitName_target hundotted, Prod.mk.injEq, doubled_eq_self_iff] at h
    refine ⟨hundotted, fun s hs => ?_, h.2⟩
    obtain rfl : schema = some s := hs
    exact doubled_eq_self_iff.1 (Option.some.inj h.1)
  · intro h
    have hschema : schema.map doubled = schema := by
      cases schema with
      | none => rfl
      | some s => exact congrArg some (doubled_eq_self_iff.2 (h.schema s rfl))
    rw [splitName_target h.undotted, hschema, doubled_eq_self_iff.2 h.name]

/-- **Splitting a name in quoted form.** A name is cut between its parts exactly if the first one
holds no dot; the quotes around the parts are then taken off, and those inside stay doubled. So the
name comes out as it was, and calls go to the routine that was named, exactly if no part holds a
quote and the first one holds no dot. -/
theorem split_undoes_quoting_iff (schema : Option String) (name : String) :
    (splitName (target schema name) = (schema.map doubled, doubled name) ↔
      '.' ∉ (leading schema name).toList) ∧
    (splitName (target schema name) = (schema, name) ↔ Bare schema name) ∧
    ∀ kind bindings,
      call (splitName (target schema name)).1 (splitName (target schema name)).2 kind bindings =
        call schema name kind bindings ↔ Bare schema name := by
  refine ⟨⟨fun h => ?_, splitName_target⟩, splitName_target_eq_iff, fun kind bindings => ?_⟩
  · refine undotted_of_splitName (f := doubled) (fun s hdot => ?_) (congrArg Prod.fst h)
    rw [doubled, String.toList_ofList]
    exact mem_escapeQuotes.2 hdot
  · rw [← splitName_target_eq_iff]
    constructor
    · intro h
      have hread := readCall_call schema name kind bindings
      rw [← h, readCall_call, Option.some.injEq, CallStatement.mk.injEq] at hread
      exact Prod.ext hread.2.1 hread.2.2.1
    · intro h
      rw [h]

-- a dot makes no difference behind a schema
example : Bare (some "Billing") "Close" ∧ Bare (some "billing") "v1.2" ∧ ¬ Bare none "v1.2" := by
  decide

/-- A quote inside a part stays doubled, and a dot inside the quotes cuts the part. -/
theorem split_keeps_doubled_quote :
    splitName (quote "app" ++ "." ++ quote "we\"ird") = (some "app", "we\"\"ird") ∧
    splitName (quote "v1.2") = (some "\"v1", "2\"") ∧
    ¬ ∀ schema name, splitName (quote schema ++ "." ++ quote name) = (some schema, name) := by
  have hquote : splitName (quote "app" ++ "." ++ quote "we\"ird") = (some "app", "we\"\"ird") := rfl
  refine ⟨hquote, rfl, fun h => ?_⟩
  have hword : some "app" = some "app" ∧ "we\"\"ird" = "we\"ird" :=
    Prod.mk.inj (hquote.symm.trans (h "app" "we\"ird"))
  exact absurd hword.2 (by decide)

end Sprocket.Sql
