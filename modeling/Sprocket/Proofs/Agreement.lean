import Sprocket.Proofs.Literals
import Sprocket.Proofs.Members

/-!
# What the backends agree on

The classes of C#, the typings and the bindings of a method are written by loops of their own. Read
from the texts, they hold the same names in the same order, and they treat a method as one that
returns rows, or not, all together.

* `Naming.WordLike`, `Naming.SameButFirst`: names of words and marks, and what casing changes;
* `Typings.fieldName?`, `Bindings.cell?`, `Bindings.input?`, `CSharp.propertyName?`,
  `CSharp.binding?`: the names that lines tell;
* `Excerpts.StandIn`: what the three texts hold of one method;
* `Excerpts.Agree`: excerpts that name and classify alike;
* `Excerpts.StandIn.rowClass_tells` and those behind it: what is read from one of the excerpts;
* `Context.backends_agree`: the excerpts of every method do.
-/

namespace Sprocket

/-! ### Names -/

namespace Text

/-- A character of a word has one small form, which is a character of words again. -/
theorem lowerChar_of_isWordChar {c : Char} (h : isWordChar c = true) :
    lowerChar c = [c.toLower] ∧ isWordChar c.toLower = true ∧ c.toLower.toLower = c.toLower := by
  have hall : ∀ n < 0x7B, isWordChar (Char.ofNat n) = true →
      lowerChar (Char.ofNat n) = [(Char.ofNat n).toLower] ∧
        isWordChar (Char.ofNat n).toLower = true ∧
        (Char.ofNat n).toLower.toLower = (Char.ofNat n).toLower := by
    decide +kernel
  have hc := hall c.toNat (Nat.lt_succ_of_le (toNat_of_isWordChar h).2)
  rw [Char.ofNat_toNat] at hc
  exact hc h

/-- What begins with a word, or else with no blank, is not indented. -/
theorem unindent_append {name rest : String} (hname : ∀ c ∈ name.toList, isWordChar c = true)
    (hrest : ∀ c ∈ rest.toList.head?, isBlank c = false) :
    unindent (name ++ rest) = name ++ rest := by
  have hstart : trimStart (name ++ rest).toList = (name ++ rest).toList := by
    rw [trimStart_eq_self_iff, String.toList_append]
    cases hchars : name.toList with
    | nil => exact hrest
    | cons first others =>
      intro c hc
      obtain rfl : first = c := Option.some.inj hc
      have hlayout := isLayoutChar_of_isWordChar (hname first (by simp [hchars]))
      simp only [isLayoutChar, Bool.or_eq_false_iff] at hlayout
      exact hlayout.1.1
  rw [unindent, hstart, String.ofList_toList]

end Text

namespace Naming

/-- A name of ASCII letters, digits, underscores and marks. -/
def WordLike (name : String) : Prop := ∀ c ∈ name.toList, Text.isWordChar c = true ∨ c = '@'

instance (name : String) : Decidable (WordLike name) :=
  List.decidableBAll _ name.toList

/-- Names that differ at most in the case of their first letter. -/
def SameButFirst (s t : String) : Prop :=
  s = t ∨ ∃ c d rest, s.toList = c :: rest ∧ t.toList = d :: rest ∧ c.toLower = d.toLower

variable {name : String}

theorem WordLike.unmarked (h : WordLike name) :
    ∀ c ∈ Naming.unmarked name.toList, Text.isWordChar c = true := by
  intro c hc
  obtain ⟨hmem, hmark⟩ := mem_unmarked.1 hc
  exact (h c hmem).resolve_right hmark

theorem WordLike.not_mem (h : WordLike name) {c : Char}
    (hc : Text.isWordChar c = false ∧ c ≠ '@') : c ∉ name.toList := fun hmem => by
  rcases h c hmem with hword | hmark
  · rw [hc.1] at hword
    cases hword
  · exact hc.2 hmark

theorem WordLike.newline (h : WordLike name) : '\n' ∉ name.toList := h.not_mem (by decide)

/-- A client name consists of word characters, and begins with the small form of the first one where
that is asked for. -/
theorem WordLike.client (h : WordLike name) (camel : Bool) :
    (∀ c ∈ (client camel name).toList, Text.isWordChar c = true) ∧
      SameButFirst (field name) (client camel name) := by
  have hunmarked := h.unmarked
  rw [Naming.client, field, String.toList_ofList, clientChars]
  cases camel with
  | false => exact ⟨hunmarked, .inl rfl⟩
  | true =>
    rw [if_pos rfl]
    cases hchars : Naming.unmarked name.toList with
    | nil => exact ⟨by simp [Text.lowerFirst], .inl rfl⟩
    | cons first others =>
      rw [hchars] at hunmarked
      obtain ⟨hfirst, hothers⟩ := List.forall_mem_cons.1 hunmarked
      obtain ⟨hlower, hword, hsame⟩ := Text.lowerChar_of_isWordChar hfirst
      rw [Text.lowerFirst, hlower]
      exact ⟨List.forall_mem_cons.2 ⟨hword, hothers⟩, .inr ⟨first, first.toLower, others,
        String.toList_ofList, String.toList_ofList, hsame.symm⟩⟩

end Naming

/-- Words hold no other characters. -/
theorem Text.not_mem_of_isWordChar {s : String} (h : ∀ c ∈ s.toList, isWordChar c = true) {d : Char}
    (hd : isWordChar d = false) : d ∉ s.toList := fun hmem => by
  rw [h d hmem] at hd
  cases hd

open Layout (units)
open Text (unindent foundIn)

/-! ### Typings -/

namespace Typings

/-- The name of the field that a line declares: what stands in front of a colon. -/
def fieldName? (line : String) : Option String :=
  (Text.splitFirst ':' line.toList).map fun parts => String.ofList parts.1

theorem fieldName?_eq_none {c : Char} {unit : String} (h : Leads c unit)
    (hblank : Text.isBlank c = false) (hcolon : ':' ∉ unit.toList) :
    fieldName? (unindent unit) = none := by
  rw [Text.unindent_of_leads h hblank, fieldName?, Text.splitFirst_eq_none_iff.2 hcolon]
  rfl

theorem fieldName?_field {name : String} (h : Naming.WordLike name) (camel : Bool)
    (type : HostType) :
    fieldName? (unindent (Naming.client camel name ++ ": " ++ typeName type ++ ";")) =
      some (Naming.client camel name) := by
  obtain ⟨hword, -⟩ := h.client camel
  have hline : Naming.client camel name ++ ": " ++ typeName type ++ ";" =
      Naming.client camel name ++ (": " ++ typeName type ++ ";") := by
    rw [String.append_assoc, String.append_assoc, String.append_assoc]
  have hsplit : Text.splitFirst ':' (Naming.client camel name ++
      (": " ++ typeName type ++ ";")).toList =
        some ((Naming.client camel name).toList, ' ' :: ((typeName type).toList ++ [';'])) :=
    Text.splitFirst_eq_some_iff.2 ⟨by simp, Text.not_mem_of_isWordChar hword (by decide)⟩
  rw [hline, Text.unindent_append hword (by simp; decide), fieldName?, hsplit, Option.map_some,
    String.ofList_toList]

variable {m : Method}

theorem newline_not_mem_field {name : String} (h : Naming.WordLike name) (camel : Bool)
    (type : HostType) :
    '\n' ∉ (Naming.client camel name ++ ": " ++ typeName type ++ ";").toList := by
  have htype : '\n' ∉ (typeName type).toList := by cases type <;> decide
  have hname := Text.not_mem_of_isWordChar (h.client camel).1 (d := '\n') (by decide)
  simp [hname, htype]

/-- The units of a method's result class. -/
theorem units_resultClass (camel : Bool) (m : Method) :
    units (resultClass camel m) = ("export class " ++ m.name ++ "_Result") :: "\x7b" ::
      ((match m.shape with
        | .rowSequence columns => columns.map fun c =>
          Naming.client camel c.name ++ ": " ++ typeName c.type ++ ";"
        | _ => ["/* Method returns a basic type. */"]) ++ ["\x7d"]) := by
  unfold resultClass
  cases m.shape <;> simp [field]

theorem units_parameterClass (camel : Bool) (m : Method) :
    units (parameterClass camel m) = ("export class " ++ m.name ++ "_Parameters") :: "\x7b" ::
      ((if m.parameters.isEmpty then ["/* No parameters. */"] else []) ++
        ((m.parameters.map fun p => Naming.client camel p.name ++ ": " ++ typeName p.type ++ ";") ++
          ["\x7d"])) := by
  unfold parameterClass
  split <;> simp [field]

/-- A class is read as its fields: its first line and its last hold no colon. -/
theorem foundIn_class {header : String} {fields : List String} (hheader : Leads 'e' header)
    (hcolon : ':' ∉ header.toList) :
    foundIn fieldName? (header :: "\x7b" :: (fields ++ ["\x7d"])) = foundIn fieldName? fields := by
  have hopen : fieldName? (unindent "\x7b") = none := rfl
  have hclose : foundIn fieldName? ["\x7d"] = [] := rfl
  rw [Text.foundIn_cons_none (fieldName?_eq_none hheader rfl hcolon),
    Text.foundIn_cons_none hopen, Text.foundIn_append, hclose, List.append_nil]

/-- The result class holds the columns under their client names. -/
theorem foundIn_resultClass (hname : Naming.WordLike m.name)
    (hcolumns : ∀ c ∈ m.shape.columns, Naming.WordLike c.name) (camel : Bool) :
    foundIn fieldName? (units (resultClass camel m)) =
      m.shape.columns.map fun c => Naming.client camel c.name := by
  have hcolon : ':' ∉ ("export class " ++ m.name ++ "_Result").toList := by
    simp [hname.not_mem (c := ':') (by decide)]
  have hcomment : foundIn fieldName? ["/* Method returns a basic type. */"] = [] :=
    Text.foundIn_cons_none (fieldName?_eq_none (c := '/') (by simp [Leads]) rfl (by simp))
  rw [units_resultClass, foundIn_class (by simp [Leads]) hcolon]
  cases hshape : m.shape with
  | rowSequence columns =>
    rw [hshape] at hcolumns
    exact Text.foundIn_map fun c hc => fieldName?_field (hcolumns c hc) camel c.type
  | scalar => exact hcomment
  | affectedCount => exact hcomment

theorem foundIn_parameterClass (hname : Naming.WordLike m.name)
    (hparameters : ∀ p ∈ m.parameters, Naming.WordLike p.name) (camel : Bool) :
    foundIn fieldName? (units (parameterClass camel m)) =
      m.parameters.map fun p => Naming.client camel p.name := by
  have hcolon : ':' ∉ ("export class " ++ m.name ++ "_Parameters").toList := by
    simp [hname.not_mem (c := ':') (by decide)]
  have hcomment : foundIn fieldName?
      (if m.parameters.isEmpty then ["/* No parameters. */"] else []) = [] := by
    split
    · exact Text.foundIn_cons_none (fieldName?_eq_none (c := '/') (by simp [Leads]) rfl (by simp))
    · rfl
  rw [units_parameterClass, ← List.append_assoc, foundIn_class (by simp [Leads]) hcolon,
    Text.foundIn_append, hcomment, List.nil_append]
  exact Text.foundIn_map fun p hp => fieldName?_field (hparameters p hp) camel p.type

theorem newline_not_mem_resultClass (hname : Naming.WordLike m.name)
    (hcolumns : ∀ c ∈ m.shape.columns, Naming.WordLike c.name) (camel : Bool) :
    ∀ unit ∈ units (resultClass camel m), '\n' ∉ unit.toList := by
  have hm := hname.newline
  rw [units_resultClass]
  simp only [List.forall_mem_cons, List.forall_mem_append]
  refine ⟨by simp [hm], by simp, ?_, by simp, by simp⟩
  cases hshape : m.shape with
  | rowSequence columns =>
    rw [hshape] at hcolumns
    exact List.forall_mem_map.2 fun c hc => newline_not_mem_field (hcolumns c hc) camel c.type
  | scalar => simp
  | affectedCount => simp

theorem newline_not_mem_parameterClass (hname : Naming.WordLike m.name)
    (hparameters : ∀ p ∈ m.parameters, Naming.WordLike p.name) (camel : Bool) :
    ∀ unit ∈ units (parameterClass camel m), '\n' ∉ unit.toList := by
  have hm := hname.newline
  rw [units_parameterClass]
  simp only [List.forall_mem_cons, List.forall_mem_append, List.forall_mem_map]
  refine ⟨by simp [hm], by simp, ?_, fun p hp => newline_not_mem_field (hparameters p hp) camel
    p.type, by simp, by simp⟩
  split <;> simp

end Typings

/-! ### Bindings -/

namespace Bindings

/-- The name that a cell shows. -/
def cell? (line : String) : Option String := do
  let rest ← Text.dropMark? "<td>\x7b\x7bitem.".toList line.toList
  let (name, _) ← Text.splitFirst '\x7d' rest
  return String.ofList name

/-- The name of an input, and the field of the parameters that it is bound to. -/
def input? (line : String) : Option (String × String) := do
  let rest ← Text.dropMark? "<input name=\"".toList line.toList
  let (name, rest) ← Text.splitFirst '\"' rest
  let rest ← Text.dropMark? " [(ngModel)]=\"parameters.".toList rest
  let (field, _) ← Text.splitFirst '\"' rest
  return (String.ofList name, String.ofList field)

variable {camel : Bool} {m : Method}

theorem cell?_cell {c : ResultColumn} (h : Naming.WordLike c.name) :
    cell? (unindent (cell camel c)) = some (Naming.client camel c.name) := by
  have hname := Text.not_mem_of_isWordChar (h.client camel).1 (d := '\x7d') (by decide)
  have hline : (cell camel c).toList = "<td>\x7b\x7bitem.".toList ++
      ((Naming.client camel c.name).toList ++ '\x7d' :: "\x7d</td>".toList) := by
    simp [cell]
  have hsplit : Text.splitFirst '\x7d'
      ((Naming.client camel c.name).toList ++ '\x7d' :: "\x7d</td>".toList) =
        some ((Naming.client camel c.name).toList, "\x7d</td>".toList) :=
    Text.splitFirst_eq_some_iff.2 ⟨rfl, hname⟩
  have hleads : Leads '<' (cell camel c) := by simp [Leads, cell]
  rw [Text.unindent_of_leads hleads rfl, cell?, hline, Text.dropMark?_append]
  simp only [Option.bind_eq_bind, Option.bind_some, hsplit, Option.pure_def, String.ofList_toList]

theorem input?_input {p : Parameter} (h : Naming.WordLike p.name) :
    input? (unindent (input camel p)) =
      some (Naming.client camel p.name, Naming.client camel p.name) := by
  have hname := Text.not_mem_of_isWordChar (h.client camel).1 (d := '\"') (by decide)
  have hline : (input camel p).toList = "<input name=\"".toList ++
      ((Naming.client camel p.name).toList ++ '\"' :: (" [(ngModel)]=\"parameters.".toList ++
        ((Naming.client camel p.name).toList ++ '\"' :: " />".toList))) := by
    unfold input
    simp
  have hsplit : ∀ rest, Text.splitFirst '\"'
      ((Naming.client camel p.name).toList ++ '\"' :: rest) =
        some ((Naming.client camel p.name).toList, rest) := fun rest =>
    Text.splitFirst_eq_some_iff.2 ⟨rfl, hname⟩
  have hleads : Leads '<' (input camel p) := by
    rw [Leads, hline]
    rfl
  rw [Text.unindent_of_leads hleads rfl, input?, hline, Text.dropMark?_append]
  simp only [Option.bind_eq_bind, Option.bind_some, hsplit, Text.dropMark?_append, Option.pure_def,
    String.ofList_toList]

theorem units_result (camel : Bool) (m : Method) :
    units (result camel m) =
      match m.shape with
      | .rowSequence columns =>
        "<table>" :: row m :: (columns.map (cell camel) ++ ["</tr>", "</table>"])
      | _ => ["<!-- Method returns a basic type. -->"] := by
  unfold result
  cases m.shape <;> simp

theorem units_inputs (camel : Bool) (m : Method) :
    units (inputs camel m) =
      (if m.parameters.isEmpty then ["<!-- Method expects no parameters. -->"] else []) ++
        m.parameters.map (input camel) := by
  unfold inputs
  split <;> simp

/-- A table shows the columns under their client names. -/
theorem foundIn_result (hcolumns : ∀ c ∈ m.shape.columns, Naming.WordLike c.name) :
    foundIn cell? (units (result camel m)) =
      m.shape.columns.map fun c => Naming.client camel c.name := by
  rw [units_result]
  cases hshape : m.shape with
  | rowSequence columns =>
    rw [hshape] at hcolumns
    have hopen : cell? (unindent "<table>") = none := rfl
    have hrow : cell? (unindent (row m)) = none := by
      have hleads : Leads '<' (row m) := by
        unfold Leads row
        simp
      have hmark : Text.dropMark? "<td>\x7b\x7bitem.".toList (row m).toList = none := by
        unfold row
        simp [Text.dropMark?]
      rw [Text.unindent_of_leads hleads rfl, cell?, hmark]
      rfl
    have hclose : foundIn cell? ["</tr>", "</table>"] = [] := rfl
    have hcells : foundIn cell? (columns.map (cell camel)) =
        columns.map fun c => Naming.client camel c.name :=
      Text.foundIn_map fun c hc => cell?_cell (hcolumns c hc)
    dsimp only
    rw [Text.foundIn_cons_none hopen, Text.foundIn_cons_none hrow, Text.foundIn_append, hclose,
      List.append_nil, hcells]
    rfl
  | scalar => rfl
  | affectedCount => rfl

/-- The inputs are named like the fields that they are bound to. -/
theorem foundIn_inputs (hparameters : ∀ p ∈ m.parameters, Naming.WordLike p.name) :
    foundIn input? (units (inputs camel m)) =
      m.parameters.map fun p => (Naming.client camel p.name, Naming.client camel p.name) := by
  have hcomment : foundIn input?
      (if m.parameters.isEmpty then ["<!-- Method expects no parameters. -->"] else []) = [] := by
    split <;> rfl
  rw [units_inputs, Text.foundIn_append, hcomment, List.nil_append]
  exact Text.foundIn_map fun p hp => input?_input (hparameters p hp)

theorem newline_not_mem_result (hname : Naming.WordLike m.name)
    (hcolumns : ∀ c ∈ m.shape.columns, Naming.WordLike c.name) :
    ∀ unit ∈ units (result camel m), '\n' ∉ unit.toList := by
  have hclient : ∀ {name : String}, Naming.WordLike name → ∀ camel,
      '\n' ∉ (Naming.client camel name).toList := fun h camel =>
    Text.not_mem_of_isWordChar (h.client camel).1 (by decide)
  have hrow : '\n' ∉ (row m).toList := by
    unfold row
    simp [hclient hname true]
  rw [units_result]
  cases hshape : m.shape with
  | rowSequence columns =>
    rw [hshape] at hcolumns
    simp only [List.forall_mem_cons, List.forall_mem_append, List.forall_mem_map]
    refine ⟨by simp, hrow, fun c hc => ?_, by simp, by simp, by simp⟩
    simp [cell, hclient (hcolumns c hc) camel]
  | scalar => simp
  | affectedCount => simp

theorem newline_not_mem_inputs (hparameters : ∀ p ∈ m.parameters, Naming.WordLike p.name) :
    ∀ unit ∈ units (inputs camel m), '\n' ∉ unit.toList := by
  rw [units_inputs]
  simp only [List.forall_mem_append, List.forall_mem_map]
  refine ⟨by split <;> simp, fun p hp => ?_⟩
  have hname : '\n' ∉ (Naming.client camel p.name).toList :=
    Text.not_mem_of_isWordChar ((hparameters p hp).client camel).1 (by decide)
  unfold input
  simp [hname]

end Bindings

/-! ### C# -/

namespace CSharp

/-- The name of the property that a line declares. -/
def propertyName? (line : String) : Option String :=
  match Text.words line with
  | _ :: _ :: name :: rest => if rest = ["\x7b", "get;", "set;", "\x7d"] then some name else none
  | _ => none

/-- The name that a line of a runtime call hands over, and the property of the parameters that it
reads. -/
def binding? (line : String) : Option (String × String) := do
  let rest ← Text.dropMark? "_.AddWithValue(\"".toList line.toList
  let (name, rest) ← Text.splitFirst '\"' rest
  let rest ← Text.dropMark? ", parameters.".toList rest
  let (property, _) ← Text.splitFirst ')' rest
  return (String.ofList name, String.ofList property)

variable {m : Method}

theorem propertyName?_propertyLine (type : HostType) {name : String} (h : ' ' ∉ name.toList) :
    propertyName? (unindent (propertyLine type name)) = some name := by
  have hline : propertyLine type name = "public" ++ " " ++ (optionalTypeName type ++ " " ++
      (name ++ " " ++ "\x7b get; set; \x7d")) := by
    rw [← String.toList_inj]
    simp [propertyLine]
  have hend : Text.words "\x7b get; set; \x7d" = ["\x7b", "get;", "set;", "\x7d"] := by decide
  rw [Text.unindent_of_leads (leads_propertyLine type name) rfl, propertyName?, hline,
    Text.words_append (by decide), Text.words_append (space_not_mem_optionalTypeName type),
    Text.words_append h, hend]
  exact if_pos rfl

theorem binding?_bindingLine {p : Parameter} (h : Naming.WordLike p.name) :
    binding? (unindent (bindingLine p)) = some (p.name, p.fieldName) := by
  have hline : (bindingLine p).toList = "_.AddWithValue(\"".toList ++ (p.name.toList ++
      '\"' :: (", parameters.".toList ++ (p.fieldName.toList ++ ')' :: ";".toList))) := by
    unfold bindingLine
    simp
  have hname : ∀ rest, Text.splitFirst '\"' (p.name.toList ++ '\"' :: rest) =
      some (p.name.toList, rest) := fun rest =>
    Text.splitFirst_eq_some_iff.2 ⟨rfl, h.not_mem (by decide)⟩
  have hfield : Text.splitFirst ')' (p.fieldName.toList ++ ')' :: ";".toList) =
      some (p.fieldName.toList, ";".toList) :=
    Text.splitFirst_eq_some_iff.2 ⟨rfl, not_mem_fieldName (h.not_mem (by decide))⟩
  rw [Text.unindent_of_leads (leads_bindingLine p) rfl, binding?, hline, Text.dropMark?_append]
  simp only [Option.bind_eq_bind, Option.bind_some, hname, Text.dropMark?_append, hfield,
    Option.pure_def, String.ofList_toList]

/-- The parameter class holds the parameters without their marks. -/
theorem foundIn_parameterClass (hname : Naming.WordLike m.name)
    (hparameters : ∀ p ∈ m.parameters, Naming.WordLike p.name) :
    foundIn propertyName? (units (parameterClass m)) = m.parameters.map Parameter.fieldName := by
  have hspace : ' ' ∉ (m.name ++ "Parameters").toList := by
    simp [hname.not_mem (c := ' ') (by decide)]
  have hclass : propertyName? (unindent ("public class " ++ m.name ++ "Parameters")) = none := by
    have hline : "public class " ++ m.name ++ "Parameters" =
        "public" ++ " " ++ ("class" ++ " " ++ (m.name ++ "Parameters")) := by
      rw [← String.toList_inj]
      simp
    rw [Text.unindent_of_leads (c := 'p') (by simp [Leads]) rfl, propertyName?, hline,
      Text.words_append (by decide), Text.words_append (by decide), Text.words_of_not_mem hspace]
    rfl
  have hopen : propertyName? (unindent "\x7b") = none := rfl
  have hclose : foundIn propertyName? ["\x7d"] = [] := rfl
  rw [units_parameterClass, Text.foundIn_cons_none hclass, Text.foundIn_cons_none hopen,
    Text.foundIn_append, hclose, List.append_nil]
  refine Text.foundIn_map fun p hp => propertyName?_propertyLine p.type ?_
  exact not_mem_fieldName ((hparameters p hp).not_mem (by decide))

/-- A line that begins otherwise hands over no name. -/
theorem binding?_of_leads {c : Char} {unit : String} (h : Leads c unit)
    (hblank : Text.isBlank c = false) (hc : c ≠ '_') : binding? (unindent unit) = none := by
  obtain ⟨r, hline⟩ : ∃ r, unit.toList = c :: r := List.head?_eq_some_iff.1 h
  have hmark : Text.dropMark? "_.AddWithValue(\"".toList unit.toList = none := by
    simp [Text.dropMark?, hline, Ne.symm hc]
  rw [Text.unindent_of_leads h hblank, binding?, hmark]
  rfl

/-- A runtime call is handed every parameter under its own name, read from its property. -/
theorem foundIn_bindings (hparameters : ∀ p ∈ m.parameters, Naming.WordLike p.name) :
    foundIn binding? (units (bindings m)) = m.parameters.map fun p => (p.name, p.fieldName) := by
  have hnone : binding? (unindent ("parameters : _ => \x7b\x7d" ++ bindingEnd m)) = none :=
    binding?_of_leads (c := 'p') (by simp [Leads]) rfl (by decide)
  have hend : binding? (unindent ("\x7d" ++ bindingEnd m)) = none :=
    binding?_of_leads (c := '\x7d') (by simp [Leads]) rfl (by decide)
  have hopening : ∀ rest, foundIn binding?
      ("parameters : _ =>" :: "\x7b" :: "if (parameters == null) return;" :: rest) =
        foundIn binding? rest := fun _ => rfl
  rw [units_bindings]
  split
  next hempty =>
    rw [List.isEmpty_iff.1 hempty, Text.foundIn_cons_none hnone]
    rfl
  · rw [hopening, Text.foundIn_append, Text.foundIn_cons_none hend, Text.foundIn_nil,
      List.append_nil]
    exact Text.foundIn_map fun p hp => binding?_bindingLine (hparameters p hp)

/-! ### Where parts stand -/

/-- What stands before the classes of rows. -/
def heading (c : Context) : List WriterStep :=
  [.emit "using System;", .emit "using System.Collections.Generic;", .emit "using System.Linq;",
    .emit "using Dataflip;", .blank, .emit ("namespace " ++ c.namespaceName), .emit "\x7b",
    .emit ("public class " ++ c.name ++ " : DataflipContext"), .emit "\x7b",
    .emit ("public " ++ c.name ++ "(DataflipSettings settings) : base(settings)"),
    .emit "\x7b\x7d", .blank,
    .emit ("public " ++ c.name ++ "() : base(\"" ++ c.name ++ "\")"), .emit "\x7b\x7d", .blank,
    .emit "#region Result Classes"]

theorem exists_steps_eq_resultClass {c : Context} {others after : List Method} {m : Method}
    (h : c.methods = others ++ m :: after) :
    ∃ rest, steps c =
      (heading c ++ others.flatMap resultClass) ++ (resultClass m ++ rest) := by
  have hopening : opening c =
      heading c ++ (c.methods.flatMap resultClass ++ [.emit "#endregion", .blank]) := by
    simp [opening, heading]
  refine ⟨after.flatMap resultClass ++ ([.emit "#endregion", .blank] ++
    ((c.methods.flatMap fun m => method m ++ [WriterStep.blank]) ++
      [.emit "\x7d", .emit "\x7d"])), ?_⟩
  rw [steps_eq, hopening]
  simp [h]

end CSharp

/-! ### Excerpts -/

/-- A method whose names consist of ASCII letters, digits, underscores and marks, but for the name
of its procedure, which can be any. -/
structure Method.WordLike (m : Method) : Prop where
  name : Naming.WordLike m.name
  parameters : ∀ p ∈ m.parameters, Naming.WordLike p.name
  columns : ∀ c ∈ m.shape.columns, Naming.WordLike c.name

/-- What the artifacts of a context hold of one method: in C# the class of its rows, the class of
its parameters, and the bindings and the mapping of its runtime call; in typings its two classes;
in markup its table and its inputs. -/
structure Excerpts where
  rowClass : String
  parameterClass : String
  bindings : String
  mapping : String
  resultFields : String
  parameterFields : String
  table : String
  inputs : String

/-- The excerpts stand in three texts where these are written for the method after `others`. -/
structure Excerpts.StandIn (e : Excerpts) (c : Context) (camel : Bool) (others : List Method)
    (m : Method) (code typings markup : String) : Prop where
  rowClass : CSharp.layout.Part (CSharp.heading c ++ others.flatMap CSharp.resultClass)
    (CSharp.resultClass m) code e.rowClass
  parameterClass : CSharp.layout.Part
    (CSharp.before c others ++ [.emit ("#region " ++ m.procedure)])
    (CSharp.parameterClass m) code e.parameterClass
  bindings : CSharp.layout.Part
    (CSharp.before c others ++ CSharp.callStart m ++ [.emit (CSharp.queryLine m)])
    (CSharp.bindings m) code e.bindings
  mapping : CSharp.layout.Part
    (CSharp.before c others ++ CSharp.callStart m ++ [.emit (CSharp.queryLine m)] ++
      CSharp.bindings m)
    (CSharp.mapping m) code e.mapping
  resultFields : Typings.layout.Part (Backend.typescript.before camel c others)
    (Typings.resultClass camel m) typings e.resultFields
  parameterFields : Typings.layout.Part
    (Backend.typescript.before camel c others ++ Typings.resultClass camel m)
    (Typings.parameterClass camel m) typings e.parameterFields
  table : Bindings.layout.Part
    (Backend.angular.before camel c others ++
      [.emit ("<!-- Bindings for " ++ m.name ++ "_Result -->")])
    (Bindings.result camel m) markup e.table
  inputs : Bindings.layout.Part
    (Backend.angular.before camel c others ++
      [.emit ("<!-- Bindings for " ++ m.name ++ "_Result -->")] ++ Bindings.result camel m ++
        [.emit ("<!-- Bindings for " ++ m.name ++ "_Parameters -->")])
    (Bindings.inputs camel m) markup e.inputs

open Text (found bareLines)

/-- The excerpts name and classify alike: columns and parameters have the same names wherever a
client reads them, the properties of the C# class have these names too but for the casing of the
first letter, a runtime call reads these properties next to the remote names, and rows are returned
everywhere or nowhere. The classes that fields and properties are read from say whose they are in
their first lines. -/
structure Excerpts.Agree (e : Excerpts) (camel : Bool) (m : Method) : Prop where
  resultHeader : (bareLines e.resultFields).head? = some ("export class " ++ m.name ++ "_Result")
  parameterHeader : (bareLines e.parameterFields).head? =
    some ("export class " ++ m.name ++ "_Parameters")
  propertyHeader : (bareLines e.parameterClass).head? =
    some ("public class " ++ m.name ++ "Parameters")
  columns : found Typings.fieldName? e.resultFields =
    m.shape.columns.map fun c => Naming.client camel c.name
  cells : found Bindings.cell? e.table = found Typings.fieldName? e.resultFields
  parameters : found Typings.fieldName? e.parameterFields =
    m.parameters.map fun p => Naming.client camel p.name
  inputs : found Bindings.input? e.inputs =
    (found Typings.fieldName? e.parameterFields).map fun name => (name, name)
  properties : camel = false →
    found CSharp.propertyName? e.parameterClass = found Typings.fieldName? e.parameterFields
  casing : List.Forall₂ Naming.SameButFirst (found CSharp.propertyName? e.parameterClass)
    (found Typings.fieldName? e.parameterFields)
  remote : (found CSharp.binding? e.bindings).map Prod.fst = m.parameters.map Parameter.name
  read : (found CSharp.binding? e.bindings).map Prod.snd =
    found CSharp.propertyName? e.parameterClass
  rowClass : "public class " ++ m.name ++ "Result" ∈ bareLines e.rowClass ↔
    m.shape.kind = .rowSequence
  mapping : "mapping : reader => new " ++ m.name ++ "Result()" ∈ bareLines e.mapping ↔
    m.shape.kind = .rowSequence
  fields : found Typings.fieldName? e.resultFields ≠ [] ↔ m.shape.kind = .rowSequence
  table : "<table>" ∈ bareLines e.table ↔ m.shape.kind = .rowSequence

section

variable {c : Context} {camel : Bool} {others after : List Method} {m : Method}
  {code typings markup : String}

/-- Every method has its excerpts. -/
theorem exists_excerpts (hcode : CSharp.render c = .ok code)
    (htypings : Typings.render camel c = .ok typings)
    (hmarkup : Bindings.render camel c = .ok markup) (h : c.methods = others ++ m :: after) :
    ∃ e : Excerpts, e.StandIn c camel others m code typings markup := by
  obtain ⟨codeRest, hcodeSteps⟩ := CSharp.exists_steps_eq h
  obtain ⟨typingsRest, htypingsSteps⟩ := Backend.exists_steps_eq .typescript camel h
  obtain ⟨markupRest, hmarkupSteps⟩ := Backend.exists_steps_eq .angular camel h
  obtain ⟨classRest, hclassSteps⟩ := CSharp.exists_steps_eq_resultClass h
  obtain ⟨rowClass, hrowClass⟩ := Layout.exists_part hcode hclassSteps
  have hparameterSteps : CSharp.steps c =
      (CSharp.before c others ++ [.emit ("#region " ++ m.procedure)]) ++
        (CSharp.parameterClass m ++ (CSharp.summary m ++ CSharp.body m ++ [.emit "#endregion"] ++
          codeRest)) := by
    simp [hcodeSteps, CSharp.method]
  obtain ⟨parameterClass, hparameterClass⟩ := Layout.exists_part hcode hparameterSteps
  have hbindingSteps : CSharp.steps c =
      (CSharp.before c others ++ CSharp.callStart m ++ [.emit (CSharp.queryLine m)]) ++
        (CSharp.bindings m ++ (CSharp.mapping m ++ CSharp.callEnd ++ codeRest)) := by
    simp [hcodeSteps, CSharp.method_eq]
  obtain ⟨bindings, hbindings⟩ := Layout.exists_part hcode hbindingSteps
  have hmappingSteps : CSharp.steps c =
      (CSharp.before c others ++ CSharp.callStart m ++ [.emit (CSharp.queryLine m)] ++
        CSharp.bindings m) ++ (CSharp.mapping m ++ (CSharp.callEnd ++ codeRest)) := by
    simp [hcodeSteps, CSharp.method_eq]
  obtain ⟨mapping, hmapping⟩ := Layout.exists_part hcode hmappingSteps
  have hresultSteps : Typings.steps camel c = Backend.typescript.before camel c others ++
      (Typings.resultClass camel m ++ (Typings.parameterClass camel m ++ typingsRest)) := by
    rw [← List.append_assoc (Typings.resultClass camel m)]
    exact htypingsSteps
  obtain ⟨resultFields, hresultFields⟩ := Layout.exists_part htypings hresultSteps
  rw [← List.append_assoc] at hresultSteps
  obtain ⟨parameterFields, hparameterFields⟩ := Layout.exists_part htypings hresultSteps
  have htableSteps : Bindings.steps camel c = (Backend.angular.before camel c others ++
      [.emit ("<!-- Bindings for " ++ m.name ++ "_Result -->")]) ++ (Bindings.result camel m ++
        ([.emit ("<!-- Bindings for " ++ m.name ++ "_Parameters -->")] ++
          (Bindings.inputs camel m ++ markupRest))) := by
    refine hmarkupSteps.trans ?_
    simp [Backend.method, Bindings.method]
  obtain ⟨table, htable⟩ := Layout.exists_part hmarkup htableSteps
  rw [← List.append_assoc, ← List.append_assoc] at htableSteps
  obtain ⟨inputs, hinputs⟩ := Layout.exists_part hmarkup htableSteps
  exact ⟨⟨rowClass, parameterClass, bindings, mapping, resultFields, parameterFields, table,
    inputs⟩, hrowClass, hparameterClass, hbindings, hmapping, hresultFields, hparameterFields,
    htable, hinputs⟩

end

/-! ### Rows -/

namespace CSharp

variable {m : Method}

/-- The class of rows is written for methods that return rows. -/
theorem mem_resultClass_iff :
    "public class " ++ m.name ++ "Result" ∈ (units (resultClass m)).map unindent ↔
      m.shape.kind = .rowSequence := by
  have hheader : unindent ("public class " ++ m.name ++ "Result") =
      "public class " ++ m.name ++ "Result" :=
    Text.unindent_of_leads (c := 'p') (by simp [Leads]) rfl
  rw [units_resultClass]
  cases m.shape with
  | rowSequence columns => simp [ReturnShape.kind, hheader]
  | scalar => simp [ReturnShape.kind]
  | affectedCount => simp [ReturnShape.kind]

/-- Rows are mapped for the same methods. -/
theorem mem_mapping_iff :
    "mapping : reader => new " ++ m.name ++ "Result()" ∈ (units (mapping m)).map unindent ↔
      m.shape.kind = .rowSequence := by
  have hheader : unindent ("mapping : reader => new " ++ m.name ++ "Result()") =
      "mapping : reader => new " ++ m.name ++ "Result()" :=
    Text.unindent_of_leads (c := 'm') (by simp [Leads]) rfl
  rw [units_mapping, mappingUnits]
  cases m.shape with
  | rowSequence columns => simp [ReturnShape.kind, hheader]
  | scalar => simp [ReturnShape.kind]
  | affectedCount => simp [ReturnShape.kind]

end CSharp

theorem Bindings.mem_result_iff {camel : Bool} {m : Method} :
    "<table>" ∈ (units (result camel m)).map unindent ↔ m.shape.kind = .rowSequence := by
  have htable : unindent "<table>" = "<table>" := rfl
  have hcomment : unindent "<!-- Method returns a basic type. -->" ≠ "<table>" := by decide +kernel
  rw [units_result]
  cases m.shape with
  | rowSequence columns => simp [ReturnShape.kind, htable]
  | scalar => simp [ReturnShape.kind, hcomment.symm]
  | affectedCount => simp [ReturnShape.kind, hcomment.symm]

/-- A method that returns rows has columns. -/
theorem Method.columns_ne_nil_iff {m : Method}
    (h : Method.make m.name m.procedure m.parameters m.shape m.doc = .ok m) :
    m.shape.columns ≠ [] ↔ m.shape.kind = .rowSequence := by
  obtain ⟨-, -, hcolumns, -⟩ := Method.make_eq_ok_iff.1 h
  cases hshape : m.shape with
  | rowSequence columns =>
    have htwo := hcolumns columns hshape
    refine ⟨fun _ => rfl, fun _ hnil => ?_⟩
    obtain rfl : columns = [] := hnil
    exact absurd htwo (by decide)
  | scalar => simp [ReturnShape.columns, ReturnShape.kind]
  | affectedCount => simp [ReturnShape.columns, ReturnShape.kind]

namespace Excerpts

variable {c : Context} {camel : Bool} {others : List Method} {m : Method}
  {code typings markup : String} {e : Excerpts}

/-- The excerpt of a class of rows tells whether there is one. -/
theorem StandIn.rowClass_tells (h : e.StandIn c camel others m code typings markup)
    (hm : m.WordLike) :
    "public class " ++ m.name ++ "Result" ∈ bareLines e.rowClass ↔
      m.shape.kind = .rowSequence := by
  have hlines : ∀ unit ∈ units (CSharp.resultClass m), '\n' ∉ unit.toList :=
    CSharp.newline_not_mem_resultClass hm.name.newline fun c hc => (hm.columns c hc).newline
  rw [h.rowClass.bareLines hlines]
  exact CSharp.mem_resultClass_iff

/-- The excerpt of a mapping tells whether rows are mapped. -/
theorem StandIn.mapping_tells (h : e.StandIn c camel others m code typings markup)
    (hm : m.WordLike) :
    "mapping : reader => new " ++ m.name ++ "Result()" ∈ bareLines e.mapping ↔
      m.shape.kind = .rowSequence := by
  have hlines : ∀ unit ∈ units (CSharp.mapping m), '\n' ∉ unit.toList :=
    CSharp.units_mapping m ▸ CSharp.newline_not_mem_mappingUnits hm.name.newline fun c hc =>
      (hm.columns c hc).newline
  rw [h.mapping.bareLines hlines]
  exact CSharp.mem_mapping_iff

/-- The excerpt of a class of parameters tells whose they are, and the properties. -/
theorem StandIn.parameterClass_tells (h : e.StandIn c camel others m code typings markup)
    (hm : m.WordLike) :
    (bareLines e.parameterClass).head? = some ("public class " ++ m.name ++ "Parameters") ∧
      found CSharp.propertyName? e.parameterClass = m.parameters.map Parameter.fieldName := by
  have hlines : ∀ unit ∈ units (CSharp.parameterClass m), '\n' ∉ unit.toList :=
    CSharp.newline_not_mem_parameterClass hm.name.newline fun p hp => (hm.parameters p hp).newline
  constructor
  · exact h.parameterClass.head?_bareLines hlines (CSharp.units_parameterClass m) (c := 'p')
      (by simp [Leads]) rfl
  · rw [h.parameterClass.found _ hlines, CSharp.foundIn_parameterClass hm.name hm.parameters]

/-- The excerpt of bindings tells the remote names and the properties read next to them. -/
theorem StandIn.bindings_tell (h : e.StandIn c camel others m code typings markup)
    (hm : m.WordLike) :
    found CSharp.binding? e.bindings = m.parameters.map fun p => (p.name, p.fieldName) := by
  have hlines : ∀ unit ∈ units (CSharp.bindings m), '\n' ∉ unit.toList :=
    CSharp.newline_not_mem_bindings fun p hp => (hm.parameters p hp).newline
  rw [h.bindings.found _ hlines, CSharp.foundIn_bindings hm.parameters]

/-- The excerpt of a typing of results tells whose they are, and the fields. -/
theorem StandIn.resultFields_tell (h : e.StandIn c camel others m code typings markup)
    (hm : m.WordLike) :
    (bareLines e.resultFields).head? = some ("export class " ++ m.name ++ "_Result") ∧
      found Typings.fieldName? e.resultFields =
        m.shape.columns.map fun c => Naming.client camel c.name := by
  have hlines := Typings.newline_not_mem_resultClass hm.name hm.columns camel
  constructor
  · exact h.resultFields.head?_bareLines hlines (Typings.units_resultClass camel m) (c := 'e')
      (by simp [Leads]) rfl
  · rw [h.resultFields.found _ hlines, Typings.foundIn_resultClass hm.name hm.columns]

/-- The excerpt of a typing of parameters tells whose they are, and the fields. -/
theorem StandIn.parameterFields_tell (h : e.StandIn c camel others m code typings markup)
    (hm : m.WordLike) :
    (bareLines e.parameterFields).head? = some ("export class " ++ m.name ++ "_Parameters") ∧
      found Typings.fieldName? e.parameterFields =
        m.parameters.map fun p => Naming.client camel p.name := by
  have hlines := Typings.newline_not_mem_parameterClass hm.name hm.parameters camel
  constructor
  · exact h.parameterFields.head?_bareLines hlines (Typings.units_parameterClass camel m)
      (c := 'e') (by simp [Leads]) rfl
  · rw [h.parameterFields.found _ hlines, Typings.foundIn_parameterClass hm.name hm.parameters]

/-- The excerpt of a table tells whether there is one, and its cells. -/
theorem StandIn.table_tells (h : e.StandIn c camel others m code typings markup)
    (hm : m.WordLike) :
    ("<table>" ∈ bareLines e.table ↔ m.shape.kind = .rowSequence) ∧
      found Bindings.cell? e.table = m.shape.columns.map fun c => Naming.client camel c.name := by
  have hlines : ∀ unit ∈ units (Bindings.result camel m), '\n' ∉ unit.toList :=
    Bindings.newline_not_mem_result hm.name hm.columns
  constructor
  · rw [h.table.bareLines hlines]
    exact Bindings.mem_result_iff
  · rw [h.table.found _ hlines, Bindings.foundIn_result hm.columns]

/-- The excerpt of inputs tells their names and what they are bound to. -/
theorem StandIn.inputs_tell (h : e.StandIn c camel others m code typings markup)
    (hm : m.WordLike) :
    found Bindings.input? e.inputs =
      m.parameters.map fun p => (Naming.client camel p.name, Naming.client camel p.name) := by
  have hlines : ∀ unit ∈ units (Bindings.inputs camel m), '\n' ∉ unit.toList :=
    Bindings.newline_not_mem_inputs hm.parameters
  rw [h.inputs.found _ hlines, Bindings.foundIn_inputs hm.parameters]

/-- What the excerpts of a method hold. -/
theorem StandIn.agree (h : e.StandIn c camel others m code typings markup) (hm : m.WordLike)
    (hmade : Method.make m.name m.procedure m.parameters m.shape m.doc = .ok m) :
    e.Agree camel m := by
  obtain ⟨hpropertyHeader, hproperties⟩ := h.parameterClass_tells hm
  obtain ⟨hresultHeader, hresult⟩ := h.resultFields_tell hm
  obtain ⟨hparameterHeader, hfields⟩ := h.parameterFields_tell hm
  obtain ⟨htable, hcells⟩ := h.table_tells hm
  have hbindings := h.bindings_tell hm
  exact {
    resultHeader := hresultHeader
    parameterHeader := hparameterHeader
    propertyHeader := hpropertyHeader
    columns := hresult
    cells := hcells.trans hresult.symm
    parameters := hfields
    inputs := by
      rw [h.inputs_tell hm, hfields, List.map_map]
      rfl
    properties := by
      rintro rfl
      rw [hproperties, hfields]
      rfl
    casing := by
      rw [hproperties, hfields, List.forall₂_map_left_iff, List.forall₂_map_right_iff,
        List.forall₂_same]
      exact fun p hp => ((hm.parameters p hp).client camel).2
    remote := by
      rw [hbindings, List.map_map]
      rfl
    read := by
      rw [hbindings, hproperties, List.map_map]
      rfl
    rowClass := h.rowClass_tells hm
    mapping := h.mapping_tells hm
    fields := by
      rw [hresult, ne_eq, List.map_eq_nil_iff]
      exact Method.columns_ne_nil_iff hmade
    table := htable }

end Excerpts

theorem Naming.WordLike.unbraced {name : String} (h : Naming.WordLike name) :
    Naming.Unbraced name.toList ∧ Naming.Unbraced (Naming.unmarked name.toList) := by
  have hbraces : ∀ c ∈ name.toList, c ≠ '\x7b' ∧ c ≠ '\x7d' := fun c hc => by
    constructor <;> rintro rfl
    · exact h.not_mem (by decide) hc
    · exact h.not_mem (by decide) hc
  exact ⟨fun c hc => hbraces c (List.mem_of_mem_head? hc), fun c hc =>
    hbraces c (List.mem_of_mem_filter (List.mem_of_mem_head? hc))⟩

theorem Method.WordLike.unbraced {m : Method} (h : m.WordLike) : m.Unbraced :=
  ⟨fun c hc => (h.columns c hc).unbraced.1, fun c hc => (h.columns c hc).unbraced.2,
    fun p hp => (h.parameters p hp).unbraced.2⟩

/-- **The backends agree.** A context whose methods, parameters and columns have names of ASCII
letters, digits, underscores and marks is written by all backends, with either casing. For each of
its methods, the excerpts of the three texts name and classify alike. -/
theorem Context.backends_agree {c : Context} (hwords : ∀ m ∈ c.methods, m.WordLike)
    (hmade : ∀ m ∈ c.methods,
      Method.make m.name m.procedure m.parameters m.shape m.doc = .ok m) (camel : Bool) :
    ∃ code typings markup, CSharp.render c = .ok code ∧ Typings.render camel c = .ok typings ∧
      Bindings.render camel c = .ok markup ∧
      ∀ others m after, c.methods = others ++ m :: after →
        ∃ e : Excerpts, e.StandIn c camel others m code typings markup ∧ e.Agree camel m := by
  have hunbraced : c.Unbraced := fun m hm => (hwords m hm).unbraced
  obtain ⟨code, hcode, -⟩ := (CSharp.levels hunbraced camel).renders
  obtain ⟨typings, htypings, -⟩ := (Typings.levels hunbraced camel).renders
  obtain ⟨markup, hmarkup, -⟩ := (Bindings.levels camel c).renders
  refine ⟨code, typings, markup, hcode, htypings, hmarkup, fun others m after h => ?_⟩
  obtain ⟨e, he⟩ := exists_excerpts hcode htypings hmarkup h
  have hm : m ∈ c.methods := by simp [h]
  exact ⟨e, he, he.agree (hwords m hm) (hmade m hm)⟩

/-- With small first letters, both parameters of a method lose their marks and their capitals. -/
theorem Context.backends_agree_documented :
    let c := CSharp.documented "Finds a thing."
    ∃ code typings markup, CSharp.render c = .ok code ∧ Typings.render true c = .ok typings ∧
      Bindings.render true c = .ok markup ∧
      ∃ m ∈ c.methods, ∃ e : Excerpts, e.StandIn c true [] m code typings markup ∧
        found Bindings.cell? e.table = ["id", "name"] ∧
        found Bindings.input? e.inputs = [("id", "id"), ("id", "id")] ∧
        (found CSharp.binding? e.bindings).map Prod.fst = ["@Id", "@@Id"] := by
  intro c
  have hwords : ∀ m ∈ c.methods, m.WordLike :=
    List.forall_mem_singleton.2 ⟨by decide, by decide, by decide⟩
  obtain ⟨code, typings, markup, hcode, htypings, hmarkup, hmethods⟩ :=
    Context.backends_agree hwords (List.forall_mem_singleton.2 rfl) true
  obtain ⟨e, hstand, hagree⟩ := hmethods [] _ [] rfl
  refine ⟨code, typings, markup, hcode, htypings, hmarkup, _, List.mem_singleton_self _, e, hstand,
    ?_, ?_, ?_⟩
  · rw [hagree.cells, hagree.columns]
    decide
  · rw [hagree.inputs, hagree.parameters]
    decide
  · rw [hagree.remote]
    decide

end Sprocket
