import Mathlib.Data.List.Sort
import Sprocket.Manifest.Locate
import Sprocket.Text.Split

/-!
# Where settings are found

The search for a setting `key = "value"` goes through a text once for each of the four spellings and
puts what it finds in order. What it finds are settings in the text, each of them once; and it finds
every setting that stands at the front of a line, and every setting at all where the value holds no
equals sign.

* `Text.exists_of_mem_occurrences`, `Text.mem_occurrences`: what is found of a pattern;
* `Locate.Hit`: a setting stands in a text, with its value at an offset;
* `Locate.hit_of_mem`, `mem_of_line`, `mem_iff_hit`: what is found of a setting;
* `Locate.pairwise_valueOffsets`: the order of what is found;
* `Locate.exists_valueSpan_zero`, `exists_valueSpan_one`: which of the settings the first two are.
-/

namespace Sprocket

namespace Text

/-! ### Offsets -/

theorem byteLength_cons (c : Char) (s : List Char) :
    byteLength (c :: s) = c.utf8Size + byteLength s := rfl

/-- Texts of the same number of bytes at the front of one text are the same. -/
theorem eq_of_prefix_of_byteLength_eq {s t u : List Char} (hs : s <+: u) (ht : t <+: u)
    (h : byteLength s = byteLength t) : s = t := by
  induction u generalizing s t with
  | nil => rw [List.prefix_nil.1 hs, List.prefix_nil.1 ht]
  | cons c u ih =>
    have hsize := c.utf8Size_pos
    cases s with
    | nil =>
      cases t with
      | nil => rfl
      | cons d t =>
        obtain ⟨rfl, -⟩ := List.cons_prefix_cons.1 ht
        rw [byteLength_nil, byteLength_cons] at h
        omega
    | cons d s =>
      obtain ⟨rfl, hs'⟩ := List.cons_prefix_cons.1 hs
      cases t with
      | nil =>
        rw [byteLength_nil, byteLength_cons] at h
        omega
      | cons e t =>
        obtain ⟨rfl, ht'⟩ := List.cons_prefix_cons.1 ht
        rw [byteLength_cons, byteLength_cons, Nat.add_left_cancel_iff] at h
        rw [ih hs' ht' h]

/-! ### Occurrences -/

/-- What is found in the rest of a text occurs there, after what is to be skipped. -/
theorem exists_of_mem_occurrencesFrom {pattern s : List Char} {skip offset : Nat}
    {before : Option Char} {hit : Occurrence}
    (h : hit ∈ occurrencesFrom pattern skip offset before s) :
    ∃ between, between ++ pattern <+: s ∧
      hit = ⟨offset + byteLength between, between.getLast?.or before⟩ := by
  induction s generalizing skip offset before with
  | nil =>
    cases skip <;> cases h
  | cons c r ih =>
    have hlater : ∀ skip, hit ∈ occurrencesFrom pattern skip (offset + c.utf8Size) (some c) r →
        ∃ between, between ++ pattern <+: c :: r ∧
          hit = ⟨offset + byteLength between, between.getLast?.or before⟩ := by
      intro skip hmem
      obtain ⟨between, hstands, rfl⟩ := ih hmem
      refine ⟨c :: between, ?_, ?_⟩
      · rw [List.cons_append]
        exact List.cons_prefix_cons.2 ⟨rfl, hstands⟩
      · rw [byteLength_cons, Nat.add_assoc, List.getLast?_cons, Option.some_or]
        cases between.getLast? <;> rfl
    cases skip with
    | succ skip =>
      rw [occurrencesFrom] at h
      exact hlater skip h
    | zero =>
      rw [occurrencesFrom] at h
      split at h
      next hpattern =>
        rcases List.mem_cons.1 h with rfl | hmem
        · exact ⟨[], List.isPrefixOf_iff_prefix.1 hpattern, rfl⟩
        · exact hlater _ hmem
      next => exact hlater 0 h

/-- An occurrence that no earlier one overlaps is found. -/
theorem mem_occurrencesFrom {pattern between s : List Char} {skip : Nat} (offset : Nat)
    (before : Option Char) (hpattern : pattern ≠ []) (h : between ++ pattern <+: s)
    (hskip : skip ≤ between.length)
    (hclear : ∀ earlier, earlier ++ pattern <+: s → earlier.length < between.length →
      earlier.length + pattern.length ≤ between.length) :
    ⟨offset + byteLength between, between.getLast?.or before⟩ ∈
      occurrencesFrom pattern skip offset before s := by
  induction s generalizing between skip offset before with
  | nil =>
    obtain ⟨-, hnil⟩ := List.append_eq_nil_iff.1 (List.prefix_nil.1 h)
    exact absurd hnil hpattern
  | cons c r ih =>
    cases between with
    | nil =>
      obtain rfl : skip = 0 := Nat.le_zero.1 hskip
      rw [List.nil_append] at h
      rw [occurrencesFrom, if_pos (List.isPrefixOf_iff_prefix.2 h)]
      exact List.mem_cons_self
    | cons d between =>
      obtain ⟨rfl, h'⟩ := List.cons_prefix_cons.1 h
      have hlater : ∀ skip, skip ≤ between.length →
          ⟨offset + byteLength (d :: between), (d :: between).getLast?.or before⟩ ∈
            occurrencesFrom pattern skip (offset + d.utf8Size) (some d) r := by
        intro skip hskip
        have hmem := ih (offset + d.utf8Size) (some d) h' hskip ?_
        · rw [byteLength_cons, ← Nat.add_assoc, List.getLast?_cons, Option.some_or]
          cases hlast : between.getLast? <;> simpa [hlast] using hmem
        · intro earlier hearlier hlt
          have hle := hclear (d :: earlier) (List.cons_prefix_cons.2 ⟨rfl, hearlier⟩)
            (Nat.succ_lt_succ hlt)
          simp only [List.length_cons] at hle
          omega
      cases skip with
      | succ skip =>
        rw [occurrencesFrom]
        exact hlater skip (Nat.le_of_succ_le_succ hskip)
      | zero =>
        rw [occurrencesFrom]
        split
        next hstands =>
          have hle := hclear [] (List.isPrefixOf_iff_prefix.1 hstands) (Nat.succ_pos _)
          refine List.mem_cons_of_mem _ (hlater _ ?_)
          simp only [List.length_nil, List.length_cons] at hle
          omega
        next => exact hlater 0 (Nat.zero_le _)

/-- Occurrences are found from left to right. -/
theorem pairwise_occurrencesFrom (pattern s : List Char) (skip offset : Nat)
    (before : Option Char) :
    (occurrencesFrom pattern skip offset before s).Pairwise fun a b => a.offset < b.offset := by
  induction s generalizing skip offset before with
  | nil => cases skip <;> exact .nil
  | cons c r ih =>
    cases skip with
    | succ skip => exact ih _ _ _
    | zero =>
      rw [occurrencesFrom]
      split
      · refine List.pairwise_cons.2 ⟨fun hit hmem => ?_, ih _ _ _⟩
        obtain ⟨between, -, rfl⟩ := exists_of_mem_occurrencesFrom hmem
        have hsize := c.utf8Size_pos
        dsimp only
        omega
      · exact ih _ _ _

/-- What is found of a pattern in a text occurs in it. -/
theorem exists_of_mem_occurrences {pattern s : List Char} {hit : Occurrence}
    (h : hit ∈ occurrences pattern s) :
    ∃ before, before ++ pattern <+: s ∧ hit = ⟨byteLength before, before.getLast?⟩ := by
  obtain ⟨before, hstands, rfl⟩ := exists_of_mem_occurrencesFrom h
  exact ⟨before, hstands, by simp⟩

/-- An occurrence of a pattern in a text that no earlier one overlaps is found. -/
theorem mem_occurrences {pattern before s : List Char} (hpattern : pattern ≠ [])
    (h : before ++ pattern <+: s)
    (hclear : ∀ earlier, earlier ++ pattern <+: s → earlier.length < before.length →
      earlier.length + pattern.length ≤ before.length) :
    ⟨byteLength before, before.getLast?⟩ ∈ occurrences pattern s := by
  have hmem := mem_occurrencesFrom 0 none hpattern h (Nat.zero_le _) hclear
  rwa [Nat.zero_add, Option.or_none] at hmem

end Text

namespace Locate

open Text

/-! ### Order -/

theorem sortNat_eq_insertionSort (ns : List Nat) : sortNat ns = ns.insertionSort (· ≤ ·) := by
  have hinsert : ∀ n ms, insertNat n ms = List.orderedInsert (· ≤ ·) n ms := by
    intro n ms
    induction ms with
    | nil => rfl
    | cons m rest ih => rw [insertNat, List.orderedInsert_cons, ih]
  induction ns with
  | nil => rfl
  | cons n rest ih =>
    rw [List.insertionSort_cons, ← ih, ← hinsert]
    rfl

/-! ### Settings in a text -/

/-- What stands before and after the value in each of the spellings of a setting. -/
def frames (key : List Char) : List (List Char × Char) :=
  [(key ++ " = \"".toList, '"'), (key ++ "=\"".toList, '"'), (key ++ " = '".toList, '\''),
    (key ++ "='".toList, '\'')]

theorem spellings_eq (key value : List Char) :
    spellings key value = (frames key).map fun f => f.1 ++ value ++ [f.2] := rfl

/-- A setting of a key to a value stands in a text, in one of the spellings, and its value begins at
an offset. The key is not the tail of a longer one. -/
def Hit (source key value : List Char) (offset : Nat) : Prop :=
  ∃ f ∈ frames key, ∃ before, before ++ (f.1 ++ value ++ [f.2]) <+: source ∧
    startsKey before.getLast? = true ∧ offset = byteLength (before ++ f.1)

/-- A place in a text determines the spelling of the setting whose value begins there. -/
theorem frame_unique {source key before before' : List Char} {f f' : List Char × Char}
    (hf : f ∈ frames key) (hf' : f' ∈ frames key) (h : before ++ f.1 <+: source)
    (h' : before' ++ f'.1 <+: source)
    (heq : byteLength (before ++ f.1) = byteLength (before' ++ f'.1)) :
    f = f' ∧ before = before' := by
  -- read backwards, the quote and the space after the equals sign tell the spellings apart
  have hsame := congrArg List.reverse (eq_of_prefix_of_byteLength_eq h h' heq)
  simp only [frames, List.mem_cons, List.not_mem_nil, or_false] at hf hf'
  rcases hf with rfl | rfl | rfl | rfl <;> rcases hf' with rfl | rfl | rfl | rfl <;>
    simp at hsame <;> simp [hsame]

/-- The value of a setting stands where its spelling begins, after what is in front of it. -/
theorem offset_eq {key value : List Char} {f : List Char × Char} (hf : f ∈ frames key) (n : Nat) :
    n + byteLength (f.1 ++ value ++ [f.2]) - byteLength value - 1 = n + byteLength f.1 := by
  have hquote : f.2.utf8Size = 1 := by
    simp only [frames, List.mem_cons, List.not_mem_nil, or_false] at hf
    rcases hf with rfl | rfl | rfl | rfl <;> rfl
  rw [byteLength_append, byteLength_append, byteLength_cons, byteLength_nil, hquote]
  omega

/-- The offsets found for one spelling. -/
def offsetsOf (source value : List Char) (f : List Char × Char) : List Nat :=
  ((occurrences (f.1 ++ value ++ [f.2]) source).filter fun hit => startsKey hit.before).map
    fun hit => hit.offset + byteLength f.1

theorem valueOffsets_eq (source key value : List Char) :
    valueOffsets source key value =
      ((frames key).flatMap (offsetsOf source value)).insertionSort (· ≤ ·) := by
  rw [valueOffsets, sortNat_eq_insertionSort, spellings_eq, List.flatMap_map]
  congr 1
  refine List.flatMap_congr fun f hf => List.map_congr_left fun hit _ => ?_
  exact offset_eq hf hit.offset

theorem mem_valueOffsets {source key value : List Char} {offset : Nat} :
    offset ∈ valueOffsets source key value ↔
      ∃ f ∈ frames key, offset ∈ offsetsOf source value f := by
  rw [valueOffsets_eq, (List.perm_insertionSort _ _).mem_iff, List.mem_flatMap]

theorem exists_of_mem_offsetsOf {source value : List Char} {f : List Char × Char} {offset : Nat}
    (h : offset ∈ offsetsOf source value f) :
    ∃ before, before ++ (f.1 ++ value ++ [f.2]) <+: source ∧ startsKey before.getLast? = true ∧
      offset = byteLength (before ++ f.1) := by
  obtain ⟨hit, hmem, rfl⟩ := List.mem_map.1 h
  obtain ⟨hfound, hstarts⟩ := List.mem_filter.1 hmem
  obtain ⟨before, hstands, rfl⟩ := exists_of_mem_occurrences hfound
  exact ⟨before, hstands, hstarts, (byteLength_append before f.1).symm⟩

/-- What is found is a setting in the text. -/
theorem hit_of_mem {source key value : List Char} {offset : Nat}
    (h : offset ∈ valueOffsets source key value) : Hit source key value offset := by
  obtain ⟨f, hf, hmem⟩ := mem_valueOffsets.1 h
  exact ⟨f, hf, exists_of_mem_offsetsOf hmem⟩

/-- Settings are found once each, in the order of the text. -/
theorem pairwise_valueOffsets (source key value : List Char) :
    (valueOffsets source key value).Pairwise (· < ·) := by
  have hnodup : ((frames key).flatMap (offsetsOf source value)).Nodup := by
    refine List.nodup_flatMap.2 ⟨fun f _ => ?_, ?_⟩
    · have hordered := (pairwise_occurrencesFrom (f.1 ++ value ++ [f.2]) source 0 0 none).filter
        fun hit => startsKey hit.before
      refine List.pairwise_map.2 (hordered.imp ?_)
      intro a b hlt heq
      omega
    · have hframes : (frames key).Nodup := by simp [frames]
      refine hframes.imp_of_mem fun {f f'} hf hf' hne offset hmem hmem' => hne ?_
      obtain ⟨before, hstands, -, heq⟩ := exists_of_mem_offsetsOf hmem
      obtain ⟨before', hstands', -, heq'⟩ := exists_of_mem_offsetsOf hmem'
      have hfront : ∀ {before : List Char} {f : List Char × Char},
          before ++ (f.1 ++ value ++ [f.2]) <+: source → before ++ f.1 <+: source := by
        intro before f h
        refine List.IsPrefix.trans ?_ h
        simp
      exact (frame_unique hf hf' (hfront hstands) (hfront hstands') (heq.symm.trans heq')).1
  rw [valueOffsets_eq]
  have hsorted := List.pairwise_insertionSort (· ≤ ·)
    ((frames key).flatMap (offsetsOf source value))
  have hdistinct := (List.perm_insertionSort (· ≤ ·) _).nodup_iff.2 hnodup
  exact (hsorted.and hdistinct).imp fun h => lt_of_le_of_ne h.1 h.2

/-! ### Settings that are found -/

/-- A setting that no earlier occurrence of the same spelling overlaps is found. -/
theorem mem_of_clear {source key value before : List Char} {f : List Char × Char}
    (hf : f ∈ frames key) (h : before ++ (f.1 ++ value ++ [f.2]) <+: source)
    (hstarts : startsKey before.getLast? = true)
    (hclear : ∀ earlier, earlier ++ (f.1 ++ value ++ [f.2]) <+: source →
      earlier.length < before.length →
        earlier.length + (f.1 ++ value ++ [f.2]).length ≤ before.length) :
    byteLength (before ++ f.1) ∈ valueOffsets source key value := by
  refine mem_valueOffsets.2 ⟨f, hf, List.mem_map.2 ⟨⟨byteLength before, before.getLast?⟩, ?_, ?_⟩⟩
  · exact List.mem_filter.2 ⟨mem_occurrences (by simp) h hclear, hstarts⟩
  · exact (byteLength_append before f.1).symm

/-- What begins within an earlier occurrence of a pattern stands in that pattern. -/
theorem exists_of_overlap {pattern earlier before source : List Char}
    (hearlier : earlier ++ pattern <+: source) (hbefore : before <+: source)
    (hlt : earlier.length < before.length)
    (hover : before.length < earlier.length + pattern.length) :
    ∃ front back, before = earlier ++ front ∧ front ≠ [] ∧ back ≠ [] ∧ pattern = front ++ back := by
  have hfront : earlier <+: before :=
    List.prefix_of_prefix_length_le ((List.prefix_append _ _).trans hearlier) hbefore hlt.le
  obtain ⟨front, rfl⟩ := hfront
  have hpattern : earlier ++ front <+: earlier ++ pattern :=
    List.prefix_of_prefix_length_le hbefore hearlier (by simpa using hover.le)
  obtain ⟨back, rfl⟩ := (List.prefix_append_right_inj earlier).1 hpattern
  simp only [List.length_append] at hlt hover
  refine ⟨front, back, rfl, ?_, ?_, rfl⟩
  · rintro rfl
    simp at hlt
  · rintro rfl
    simp at hover

/-- A key may begin at the front of a line, or after blanks at the front of it. -/
theorem startsKey_of_line {lines blanks : List Char}
    (hlines : lines = [] ∨ lines.getLast? = some '\n')
    (hblanks : ∀ c ∈ blanks, isWordChar c = false) :
    startsKey (lines ++ blanks).getLast? = true := by
  cases hlast : blanks.getLast? with
  | none =>
    obtain rfl := List.getLast?_eq_none_iff.1 hlast
    rw [List.append_nil]
    rcases hlines with rfl | hnewline
    · rfl
    · rw [hnewline]
      rfl
  | some c =>
    rw [List.getLast?_append, hlast]
    simp [startsKey, hblanks c (List.mem_of_getLast? hlast)]

theorem key_prefix_of_mem_frames {key : List Char} {f : List Char × Char} (hf : f ∈ frames key) :
    key <+: f.1 := by
  simp only [frames, List.mem_cons, List.not_mem_nil, or_false] at hf
  rcases hf with rfl | rfl | rfl | rfl <;> exact List.prefix_append _ _

/-- A setting is spelled on one line if its key and its value are. -/
theorem newline_not_mem_of_mem_frames {key value : List Char} {f : List Char × Char}
    (hf : f ∈ frames key) (hkey : '\n' ∉ key) (hvalue : '\n' ∉ value) :
    '\n' ∉ f.1 ++ value ++ [f.2] := by
  simp only [frames, List.mem_cons, List.not_mem_nil, or_false] at hf
  rcases hf with rfl | rfl | rfl | rfl <;> simp [hkey, hvalue]

/-- A setting at the front of a line, or after blanks at the front of it, is found. -/
theorem mem_of_line {source key value lines blanks : List Char} {f : List Char × Char}
    (hf : f ∈ frames key) (h : lines ++ blanks ++ (f.1 ++ value ++ [f.2]) <+: source)
    (hlines : lines = [] ∨ lines.getLast? = some '\n') (hblanks : ∀ c ∈ blanks, c = ' ' ∨ c = '\t')
    (hkey : ∀ c ∈ key, isWordChar c = true) (hne : key ≠ []) (hvalue : '\n' ∉ value) :
    byteLength (lines ++ blanks ++ f.1) ∈ valueOffsets source key value := by
  have hbefore : lines ++ blanks <+: source := (List.prefix_append _ _).trans h
  have hword : ∀ c ∈ blanks, isWordChar c = false := by
    intro c hc
    rcases hblanks c hc with rfl | rfl <;> decide
  refine mem_of_clear hf h (startsKey_of_line hlines hword) fun earlier hearlier hlt => ?_
  by_contra hover
  obtain ⟨front, back, hsplit, hfront, -, hpattern⟩ :=
    exists_of_overlap hearlier hbefore hlt (Nat.lt_of_not_le hover)
  have hnewline : '\n' ∉ front := by
    have hnot : '\n' ∉ key := fun hmem => absurd (hkey _ hmem) (by decide)
    have hline := newline_not_mem_of_mem_frames hf hnot hvalue
    rw [hpattern] at hline
    exact fun hmem => hline (List.mem_append_left _ hmem)
  -- what reaches into the line begins with the key, so it would reach in front of the blanks
  obtain ⟨c, t, rfl⟩ := List.exists_cons_of_ne_nil hfront
  have hc : isWordChar c = true := by
    obtain ⟨d, u, rfl⟩ := List.exists_cons_of_ne_nil hne
    obtain ⟨tail, htail⟩ := key_prefix_of_mem_frames hf
    rw [← htail] at hpattern
    obtain ⟨rfl, -⟩ := List.cons.inj hpattern
    exact hkey _ List.mem_cons_self
  have hnot : c ∉ blanks := by
    intro hmem
    rw [hword c hmem] at hc
    cases hc
  rcases List.append_eq_append_iff.1 hsplit with ⟨u, -, hu⟩ | ⟨u, hu, ht⟩
  · exact hnot (by simp [hu])
  · cases u with
    | nil =>
      obtain rfl : c :: t = blanks := ht
      exact hnot List.mem_cons_self
    | cons d u =>
      rcases hlines with rfl | hlast
      · simp at hu
      · rw [hu, List.getLast?_append_of_ne_nil _ (by simp)] at hlast
        rw [ht] at hnewline
        exact hnewline (List.mem_append_left _ (List.mem_of_getLast? hlast))

/-- A pattern that holds one equals sign, and ends in a character that does not stand before it, is
not overlapped by itself. -/
theorem not_overlapped {a c front back : List Char} {last : Char} (ha : '=' ∉ a) (hc : '=' ∉ c)
    (hlast : last ∉ a) (hfront : front ≠ []) (hback : back.getLast? = some last)
    (hsplit : a ++ '=' :: c = front ++ back) (hstands : back <+: a ++ '=' :: c) : False := by
  obtain ⟨rest, hrest⟩ := hstands
  rcases List.append_eq_append_iff.1 hsplit with ⟨between, rfl, hbetween⟩ | ⟨between, rfl, rfl⟩
  · cases between with
    | nil =>
      -- all of the pattern from the sign on would stand at its front
      obtain rfl : '=' :: c = back := hbetween
      obtain ⟨hnil, -⟩ := append_cons_inj List.not_mem_nil ha hrest
      exact hfront (by simp [← hnil])
    | cons d between =>
      obtain ⟨rfl, rfl⟩ : '=' = d ∧ c = between ++ back := by simpa using hbetween
      -- what is left of the pattern holds no sign, so it would stand before the sign
      have hmem : last ∈ back := List.mem_of_getLast? hback
      rcases List.append_eq_append_iff.1 hrest with ⟨u, rfl, -⟩ | ⟨u, rfl, hu⟩
      · exact hlast (List.mem_append_left _ hmem)
      · cases u with
        | nil => exact hlast (by simpa using hmem)
        | cons e u =>
          obtain ⟨rfl, -⟩ : '=' = e ∧ _ := by simpa using hu
          exact hc (by simp)
  · obtain ⟨hsame, -⟩ := append_cons_inj (fun h => ha (List.mem_append_right _ h)) ha
      (by simpa using hrest)
    exact hfront (by simpa using hsame)

/-- What the search looks for holds one equals sign if the key and the value hold none, and ends in
a quote. -/
theorem exists_frame_eq {key : List Char} {f : List Char × Char} (hf : f ∈ frames key) :
    ∃ a rest, f.1 = a ++ '=' :: rest ∧ (∀ d ∈ a, d ∈ key ∨ d = ' ') ∧ '=' ∉ rest ∧
      (f.2 = '"' ∨ f.2 = '\'') := by
  simp only [frames, List.mem_cons, List.not_mem_nil, or_false] at hf
  rcases hf with rfl | rfl | rfl | rfl
  · exact ⟨key ++ [' '], [' ', '"'], by simp, by simp, by decide, .inl rfl⟩
  · exact ⟨key, ['"'], by simp, by simp +contextual, by decide, .inl rfl⟩
  · exact ⟨key ++ [' '], [' ', '\''], by simp, by simp, by decide, .inr rfl⟩
  · exact ⟨key, ['\''], by simp, by simp +contextual, by decide, .inr rfl⟩

/-- Every setting of a word to a value without an equals sign is found. -/
theorem mem_of_hit {source key value : List Char} {offset : Nat}
    (hkey : ∀ c ∈ key, isWordChar c = true) (hvalue : '=' ∉ value)
    (h : Hit source key value offset) : offset ∈ valueOffsets source key value := by
  obtain ⟨f, hf, before, hstands, hstarts, rfl⟩ := h
  refine mem_of_clear hf hstands hstarts fun earlier hearlier hlt => ?_
  by_contra hover
  have hbefore : before <+: source := (List.prefix_append _ _).trans hstands
  obtain ⟨front, back, rfl, hfront, hback, hpattern⟩ :=
    exists_of_overlap hearlier hbefore hlt (Nat.lt_of_not_le hover)
  obtain ⟨a, rest, hlead, ha, hrest, hquote⟩ := exists_frame_eq hf
  have hsplit : f.1 ++ value ++ [f.2] = a ++ '=' :: (rest ++ value ++ [f.2]) := by simp [hlead]
  have hnot : ∀ d, isWordChar d = false → d ≠ ' ' → d ∉ a := by
    intro d hword hspace hmem
    rcases ha d hmem with hd | hd
    · rw [hkey d hd] at hword
      cases hword
    · exact hspace hd
  refine not_overlapped (hnot '=' (by decide) (by decide)) ?_ (hnot f.2 ?_ ?_) hfront ?_
    (hsplit.symm.trans hpattern) ?_
  · have hsign : f.2 ≠ '=' := by rcases hquote with h | h <;> simp [h]
    simp [hrest, hvalue, hsign.symm]
  · rcases hquote with h | h <;> rw [h] <;> decide
  · rcases hquote with h | h <;> simp [h]
  · have hlast := congrArg List.getLast? hpattern
    rwa [List.getLast?_concat, List.getLast?_append_of_ne_nil _ hback, eq_comm] at hlast
  · rw [← hsplit]
    rw [hpattern] at hearlier
    have hlater : earlier ++ front ++ back <+: source := by simpa using hearlier
    have hlength : (earlier ++ front ++ back).length ≤
        (earlier ++ front ++ (f.1 ++ value ++ [f.2])).length := by
      rw [hpattern]
      simp
    exact (List.prefix_append_right_inj _).1
      (List.prefix_of_prefix_length_le hlater hstands hlength)

/-- What is found of a word set to a value without an equals sign is all there is. -/
theorem mem_iff_hit {source key value : List Char} (hkey : ∀ c ∈ key, isWordChar c = true)
    (hvalue : '=' ∉ value) (offset : Nat) :
    offset ∈ valueOffsets source key value ↔ Hit source key value offset :=
  ⟨hit_of_mem, mem_of_hit hkey hvalue⟩

/-! ### The first two -/

section

variable {source key value : String} {p q : Nat}

/-- The first setting that is found is a given one exactly if none stands before that. -/
theorem exists_valueSpan_zero (hp : p ∈ valueOffsets source.toList key.toList value.toList) :
    ∃ x, valueSpan? source key value 0 = some ⟨x, byteLength value.toList⟩ ∧
      (x = p ↔ ∀ o ∈ valueOffsets source.toList key.toList value.toList, p ≤ o) := by
  have hsorted := pairwise_valueOffsets source.toList key.toList value.toList
  unfold valueSpan?
  cases hoffsets : valueOffsets source.toList key.toList value.toList with
  | nil =>
    rw [hoffsets] at hp
    cases hp
  | cons x rest =>
    rw [hoffsets] at hp hsorted
    obtain ⟨hfirst, -⟩ := List.pairwise_cons.1 hsorted
    refine ⟨x, rfl, ?_⟩
    constructor
    · rintro rfl
      exact List.forall_mem_cons.2 ⟨le_rfl, fun o ho => (hfirst o ho).le⟩
    · intro hleast
      rcases List.mem_cons.1 hp with rfl | hmem
      · rfl
      · exact absurd (hleast x List.mem_cons_self) (Nat.not_le_of_lt (hfirst p hmem))

/-- The first setting that is found stands before the second. -/
theorem valueSpan_lt {first second : Span} (hfirst : valueSpan? source key value 0 = some first)
    (hsecond : valueSpan? source key value 1 = some second) : first.offset < second.offset := by
  have hsorted := pairwise_valueOffsets source.toList key.toList value.toList
  unfold valueSpan? at hfirst hsecond
  generalize valueOffsets source.toList key.toList value.toList = offsets at hsorted hfirst hsecond
  match offsets, hsorted, hfirst, hsecond with
  | x :: y :: rest, hsorted, hfirst, hsecond =>
    obtain rfl := Option.some.inj hfirst
    obtain rfl := Option.some.inj hsecond
    exact (List.pairwise_cons.1 hsorted).1 y List.mem_cons_self

/-- Where one setting stands before another, the second that is found is the latter exactly if no
other one stands before it. -/
theorem exists_valueSpan_one (hq : q ∈ valueOffsets source.toList key.toList value.toList)
    (hp : p ∈ valueOffsets source.toList key.toList value.toList) (hqp : q < p) :
    ∃ x, valueSpan? source key value 1 = some ⟨x, byteLength value.toList⟩ ∧
      (x = p ↔ ∀ o ∈ valueOffsets source.toList key.toList value.toList, o < p → o = q) := by
  have hsorted := pairwise_valueOffsets source.toList key.toList value.toList
  unfold valueSpan?
  generalize valueOffsets source.toList key.toList value.toList = offsets at hq hp hsorted ⊢
  match offsets with
  | [] => cases hq
  | [x] =>
    rw [List.mem_singleton] at hq hp
    omega
  | x :: y :: rest =>
    obtain ⟨hfirst, hsorted⟩ := List.pairwise_cons.1 hsorted
    obtain ⟨hsecond, -⟩ := List.pairwise_cons.1 hsorted
    refine ⟨y, rfl, ?_⟩
    have hleast : ∀ o ∈ x :: y :: rest, o < p → p ≤ y → o = x := by
      intro o ho hlt hle
      rcases List.mem_cons.1 ho with rfl | hmem
      · rfl
      · rcases List.mem_cons.1 hmem with rfl | hmem
        · omega
        · have := hsecond o hmem
          omega
    constructor
    · rintro rfl o ho hlt
      rw [hleast o ho hlt le_rfl, hleast q hq hqp le_rfl]
    · intro hall
      have hxp : x < p := by
        rcases List.mem_cons.1 hp with rfl | hmem
        · rcases List.mem_cons.1 hq with rfl | hmem
          · exact hqp
          · exact absurd (hfirst q hmem) (Nat.not_lt_of_gt hqp)
        · exact hfirst p hmem
      have hxq := hall x List.mem_cons_self hxp
      rcases List.mem_cons.1 ((List.mem_cons.1 hp).resolve_left (Nat.ne_of_gt hxp)) with rfl | hmem
      · rfl
      · have hyq := hall y (by simp) (hsecond p hmem)
        have hxy := hfirst y List.mem_cons_self
        omega

end

end Locate

end Sprocket
