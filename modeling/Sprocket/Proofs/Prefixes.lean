import Sprocket.Method
import Sprocket.Proofs.Calls

/-!
# Marks inside names

A server puts marks in front of the names of parameters, and what is generated drops them. A mark
that stands further inside is dropped along with them, so that the rest of such a name is not kept
as it stands.

* `unprefixed`: a name behind the marks it begins with;
* `cased`: a name with its first character small;
* `argumentNames`: the names that a call gives its arguments;
* `drops_prefix_alone_iff`: the identifiers of a name, and when only the leading marks are missing.
-/

namespace Sprocket.Naming

/-- A name behind the longest run of marks it begins with. -/
def unprefixed (name : String) : String := String.ofList (name.toList.dropWhile (· == '@'))

/-- No character of a name is a mark. -/
def MarkFree (name : String) : Prop := '@' ∉ name.toList

instance (name : String) : Decidable (MarkFree name) :=
  inferInstanceAs (Decidable ('@' ∉ name.toList))

/-- A name whose first character is small. -/
def cased (name : String) : String :=
  match name.toList with
  | [] => ""
  | c :: r => String.ofList (Text.lowerChar c ++ r)

/-- The names that a statement gives its arguments, if it is a call. -/
def argumentNames (statement : String) : Option (List String) :=
  (Sql.readCall statement.toList).map fun call => call.arguments.map (·.name)

/-! ### Names -/

theorem markless_eq_self_iff {name : String} : markless name = name ↔ MarkFree name := by
  rw [← String.toList_inj, markless, String.toList_ofList]
  exact unmarked_eq_self_iff

/-- The leading marks are among those that are dropped. -/
theorem field_eq_markless (name : String) : field name = markless (unprefixed name) := by
  have hdrop : ∀ s : List Char, unmarked s = (s.dropWhile (· == '@')).filter (· != '@') := by
    intro s
    induction s with
    | nil => rfl
    | cons c r ih =>
      by_cases hc : c = '@'
      · simpa [unmarked, isMarker, hc] using ih
      · simp [unmarked, isMarker, hc]
        rfl
  rw [field, markless, unprefixed, String.toList_ofList, hdrop]

theorem client_true_eq_cased (name : String) : client true name = cased (field name) := by
  rw [client, clientChars, cased, field, String.toList_ofList, if_pos rfl]
  cases unmarked name.toList with
  | nil => rfl
  | cons c r => rfl

/-- The first character behind the leading marks is no mark. -/
theorem head?_unprefixed (name : String) : (unprefixed name).toList.head? ≠ some '@' := by
  rw [unprefixed, String.toList_ofList]
  intro h
  have hnot := List.head?_dropWhile_not (· == '@') name.toList
  rw [h] at hnot
  simp at hnot

/-- A small first character changes nothing behind it. -/
theorem cased_markless_eq_iff {name : String} (h : name.toList.head? ≠ some '@') :
    cased (markless name) = cased name ↔ MarkFree name := by
  rw [← markless_eq_self_iff]
  constructor
  · intro hcased
    cases hchars : name.toList with
    | nil => simp [markless, hchars, String.ofList_eq_empty_iff.2 rfl, ← String.toList_inj]
    | cons c r =>
      have hc : (c != '@') = true := by simpa [hchars] using h
      simp only [cased, markless, hchars, List.filter_cons, hc, if_true, String.toList_ofList,
        String.ofList_inj, List.append_right_inj] at hcased
      rw [← String.toList_inj, markless, String.toList_ofList, hchars, List.filter_cons, if_pos hc,
        hcased]
  · intro hself
    rw [hself]

/-! ### Arguments -/

theorem argumentNames_call (schema : Option String) (routine : String) (kind : Sql.RoutineKind)
    (bindings : List TrialBinding) :
    argumentNames (Sql.call schema routine kind bindings) =
      some (bindings.map fun b => field b.name) := by
  rw [argumentNames, Sql.readCall_call, Option.map_some, Sql.argumentsOf, List.map_map]
  show some ((bindings.zipIdx 1).map ((fun b => field b.name) ∘ Prod.fst)) = _
  rw [← List.map_map, List.zipIdx_map_fst]

/-! ### Identifiers -/

/-- **Marks inside a name.** A field, a client name and the name of an argument are the name without
any of its marks, and a small first letter changes nothing else. So the leading marks alone are
missing exactly if no mark stands behind them. -/
theorem drops_prefix_alone_iff (p : Parameter) (schema : Option String) (routine : String)
    (kind : Sql.RoutineKind) (bindings : List TrialBinding) :
    let rest := unprefixed p.name
    let names := argumentNames (Sql.call schema routine kind bindings)
    p.fieldName = markless rest ∧ client false p.name = markless rest ∧
    client true p.name = cased (markless rest) ∧
    names = some (bindings.map fun b => markless (unprefixed b.name)) ∧
    (p.fieldName = rest ↔ MarkFree rest) ∧ (client false p.name = rest ↔ MarkFree rest) ∧
    (client true p.name = cased rest ↔ MarkFree rest) ∧
    (names = some (bindings.map fun b => unprefixed b.name) ↔
      ∀ b ∈ bindings, MarkFree (unprefixed b.name)) := by
  intro rest names
  have hfield : field p.name = markless rest := field_eq_markless p.name
  have hcased : client true p.name = cased (markless rest) := hfield ▸ client_true_eq_cased p.name
  have hnames : names = some (bindings.map fun b => markless (unprefixed b.name)) := by
    simp only [names, argumentNames_call, field_eq_markless]
  have hself : field p.name = rest ↔ MarkFree rest := by rw [hfield, markless_eq_self_iff]
  refine ⟨hfield, hfield, hcased, hnames, hself, hself, ?_, ?_⟩
  · rw [hcased, cased_markless_eq_iff (head?_unprefixed p.name)]
  · rw [hnames, Option.some_inj, List.map_inj_left]
    exact forall₂_congr fun b _ => markless_eq_self_iff

/-- A mark that stands inside a name is dropped with the one that leads it. -/
theorem inner_mark_dropped :
    let p : Parameter := ⟨"@Cost@Unit", .int32⟩
    unprefixed p.name = "Cost@Unit" ∧ p.fieldName = "CostUnit" ∧
    client false p.name = "CostUnit" ∧ client true p.name = "costUnit" ∧
    (∀ type value, argumentNames (Sql.call none "Sum" .function [⟨"@Cost@Unit", type, value⟩]) =
      some ["CostUnit"]) ∧
    ¬ ∀ name : String, field name = unprefixed name := by
  intro p
  have hfield : field "@Cost@Unit" = "CostUnit" := by decide
  refine ⟨by decide, hfield, hfield, by decide, fun type value => ?_, fun h => ?_⟩
  · rw [argumentNames_call, List.map_singleton, hfield]
  · exact absurd (hfield.symm.trans (h "@Cost@Unit")) (by decide)

end Sprocket.Naming
