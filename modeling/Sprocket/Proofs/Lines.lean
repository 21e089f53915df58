import Sprocket.Proofs.Nesting

/-!
# Reading a text by its lines

Where units hold no line break, the lines of a text are the units that it was written from, but for
the blanks in front of them. This holds of every part of a text by itself, whatever stands around
it.

* `Text.bareLines`, `Text.found`: the lines of a text without indentation, and what they tell;
* `Text.foundIn`: what units tell;
* `Layout.Part`: what some steps write after others;
* `Layout.bareLines_of_render`, `Layout.Part.bareLines`: the lines of a text and of a part of one.
-/

namespace Sprocket

/-! ### Lines -/

namespace Text

/-- A text without the blanks in front of it. -/
def unindent (s : String) : String := String.ofList (trimStart s.toList)

/-- The lines of a text, each without its indentation. -/
def bareLines (text : String) : List String :=
  (lines text.toList).map fun line => String.ofList (trimStart line)

/-- What a reader of lines finds in a text, in order. -/
def found {α : Type} (read : String → Option α) (text : String) : List α :=
  (bareLines text).filterMap read

/-- What a reader of lines finds in units, in order. -/
def foundIn {α : Type} (read : String → Option α) (us : List String) : List α :=
  us.filterMap fun unit => read (unindent unit)

theorem unindent_of_leads {c : Char} {s : String} (h : Leads c s) (hc : isBlank c = false) :
    unindent s = s := by
  have hstart : trimStart s.toList = s.toList := by
    rw [trimStart_eq_self_iff]
    intro d hd
    rw [h, Option.mem_some_iff] at hd
    exact hd ▸ hc
  rw [unindent, hstart, String.ofList_toList]

section

variable {α β : Type} {read : String → Option α} {us vs : List String} {unit : String}

@[simp] theorem foundIn_nil : foundIn read [] = [] := rfl

theorem foundIn_append : foundIn read (us ++ vs) = foundIn read us ++ foundIn read vs :=
  List.filterMap_append

theorem foundIn_flatMap (bs : List β) (block : β → List String) :
    foundIn read (bs.flatMap block) = bs.flatMap fun b => foundIn read (block b) :=
  List.filterMap_flatMap

theorem foundIn_cons_none (h : read (unindent unit) = none) :
    foundIn read (unit :: us) = foundIn read us := List.filterMap_cons_none h

theorem foundIn_cons_some {a : α} (h : read (unindent unit) = some a) :
    foundIn read (unit :: us) = a :: foundIn read us := List.filterMap_cons_some h

theorem foundIn_eq_nil (h : ∀ unit ∈ us, read (unindent unit) = none) : foundIn read us = [] :=
  List.filterMap_eq_nil_iff.2 h

/-- One thing is found in each of some lines. -/
theorem foundIn_map {bs : List β} {line : β → String} {told : β → α}
    (h : ∀ b ∈ bs, read (unindent (line b)) = some (told b)) :
    foundIn read (bs.map line) = bs.map told := by
  rw [foundIn, List.filterMap_map, ← List.filterMap_eq_map]
  exact List.filterMap_congr h

end

end Text

namespace Layout

open Text (trimStart bareLines unindent)

variable {l : Layout} {steps before part after : List WriterStep} {text block : String}

/-! ### Whole texts -/

/-- Units without line breaks are written on lines of their own, behind blanks. -/
theorem exists_lines (h : ∀ unit ∈ units steps, '\n' ∉ unit.toList) (depth : Nat) :
    ∃ lines : List (List Char), l.texts depth steps = lines.flatMap (· ++ ['\n']) ∧
      (∀ line ∈ lines, '\n' ∉ line) ∧
      lines.map trimStart = (units steps).map fun unit => trimStart unit.toList := by
  induction steps generalizing depth with
  | nil => exact ⟨[], rfl, by simp, rfl⟩
  | cons s rest ih =>
    cases s with
    | indent => exact ih h _
    | dedent => exact ih h _
    | blank =>
      obtain ⟨-, hrest⟩ := List.forall_mem_cons.1 h
      obtain ⟨lines, htexts, hnewline, hlines⟩ := ih hrest (depth + l.shift .blank).toNat
      refine ⟨[] :: lines, ?_, List.forall_mem_cons.2 ⟨by simp, hnewline⟩, ?_⟩
      · rw [texts, htexts]
        rfl
      · rw [List.map_cons, hlines]
        rfl
    | emit unit =>
      obtain ⟨hunit, hrest⟩ := List.forall_mem_cons.1 h
      obtain ⟨lines, htexts, hnewline, hlines⟩ := ih hrest (depth + l.shift (.emit unit)).toNat
      refine ⟨l.content (if l.closes unit.toList then depth - 1 else depth) unit.toList :: lines,
        ?_, List.forall_mem_cons.2 ⟨newline_not_mem_content hunit, hnewline⟩, ?_⟩
      · rw [texts, htexts, written, block_of_not_mem hunit, List.flatMap_cons]
      · rw [List.map_cons, hlines, trimStart_content]
        rfl

theorem bareLines_texts (h : ∀ unit ∈ units steps, '\n' ∉ unit.toList) (depth : Nat) :
    bareLines (String.ofList (l.texts depth steps)) = (units steps).map unindent := by
  obtain ⟨lines, htexts, hnewline, hlines⟩ := exists_lines (l := l) h depth
  have hmap := congrArg (List.map String.ofList) hlines
  rw [List.map_map, List.map_map] at hmap
  rw [bareLines, String.toList_ofList, htexts, Text.lines_flatMap hnewline]
  exact hmap

/-- The lines of a text are the units that it was written from. -/
theorem bareLines_of_render (hrender : l.render steps = .ok text)
    (h : ∀ unit ∈ units steps, '\n' ∉ unit.toList) :
    bareLines text = (units steps).map unindent := by
  obtain ⟨-, rfl⟩ := render_eq_ok_iff.1 hrender
  exact bareLines_texts h 0

-- an empty unit and a blank step are both read as an empty line
example : bareLines "do\n    a;\n\nend\n" = ["do", "a;", "", "end"] := by rfl

theorem found_of_render {α : Type} {read : String → Option α} (hrender : l.render steps = .ok text)
    (h : ∀ unit ∈ units steps, '\n' ∉ unit.toList) :
    Text.found read text = Text.foundIn read (units steps) := by
  rw [Text.found, bareLines_of_render hrender h, List.filterMap_map]
  rfl

/-! ### Parts -/

/-- In a text, `block` is what `part` has written after `before`. -/
def Part (l : Layout) (before part : List WriterStep) (text block : String) : Prop :=
  ∃ front back, l.render before = .ok front ∧ l.render (before ++ part) = .ok (front ++ block) ∧
    text = front ++ block ++ back

/-- Steps are written from nothing like the first of them, and then the others at the depth that
these lead to. -/
theorem texts_zero_append (h : l.Sustains 0 before) (after : List WriterStep) :
    l.texts 0 (before ++ after) = l.texts 0 before ++ l.texts (l.drift before).toNat after := by
  have htexts : l.texts 0 (before ++ after) =
      l.texts 0 before ++ l.texts (0 + l.drift before).toNat after := texts_append h
  rwa [zero_add] at htexts

theorem exists_part (hrender : l.render steps = .ok text) (h : steps = before ++ (part ++ after)) :
    ∃ block, l.Part before part text block := by
  obtain ⟨hsustains, rfl⟩ := render_eq_ok_iff.1 hrender
  subst h
  rw [← List.append_assoc] at hsustains
  obtain ⟨hpart, -⟩ := sustains_append.1 hsustains
  obtain ⟨hbefore, -⟩ := sustains_append.1 hpart
  refine ⟨String.ofList (l.texts (l.drift before).toNat part), String.ofList (l.texts 0 before),
    String.ofList (l.texts (l.drift (before ++ part)).toNat after),
    render_eq_ok_iff.2 ⟨hbefore, rfl⟩, render_eq_ok_iff.2 ⟨hpart, ?_⟩, ?_⟩
  · rw [texts_zero_append hbefore, String.ofList_append]
  · rw [← List.append_assoc, texts_zero_append hpart, texts_zero_append hbefore,
      String.ofList_append, String.ofList_append]

/-- The lines of a part are the units that it was written from. -/
theorem Part.bareLines (hpart : l.Part before part text block)
    (h : ∀ unit ∈ units part, '\n' ∉ unit.toList) :
    Text.bareLines block = (units part).map unindent := by
  obtain ⟨front, back, hfront, hblock, -⟩ := hpart
  obtain ⟨hbefore, rfl⟩ := render_eq_ok_iff.1 hfront
  obtain ⟨-, hboth⟩ := render_eq_ok_iff.1 hblock
  rw [texts_zero_append hbefore, String.ofList_append, String.append_right_inj] at hboth
  rw [hboth]
  exact bareLines_texts h _

/-- A part begins with the first of its units. -/
theorem Part.head?_bareLines (hpart : l.Part before part text block)
    (h : ∀ unit ∈ units part, '\n' ∉ unit.toList) {first : String} {others : List String}
    (hunits : units part = first :: others) {c : Char} (hfirst : Leads c first)
    (hc : Text.isBlank c = false) : (Text.bareLines block).head? = some first := by
  rw [hpart.bareLines h, hunits, List.map_cons, List.head?_cons, Text.unindent_of_leads hfirst hc]

theorem Part.found {α : Type} (hpart : l.Part before part text block) (read : String → Option α)
    (h : ∀ unit ∈ units part, '\n' ∉ unit.toList) :
    Text.found read block = Text.foundIn read (units part) := by
  rw [Text.found, hpart.bareLines h, List.filterMap_map]
  rfl

end Layout

end Sprocket
