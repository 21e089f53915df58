/-!
# Splitting text

Cutting a text at its first separator, at its last one, or at all of them. The pieces of
`pieces` joined by the separator give the text back, and no piece holds a separator.
-/

namespace Sprocket

/-! ### Lists that are cut at a mark -/

section

variable {α : Type}

/-- Two lists that go on after their first members with a property are equal only part by part. -/
theorem append_inj_of_span (p : α → Prop) {x y z w : List α} (hx : ∀ a ∈ x, p a)
    (hz : ∀ a ∈ z, p a) (hy : ∀ a ∈ y.head?, ¬ p a) (hw : ∀ a ∈ w.head?, ¬ p a)
    (h : x ++ y = z ++ w) : x = z ∧ y = w := by
  -- if one of the first parts ended earlier, the rest behind it would begin with the property
  induction x generalizing z with
  | nil =>
    cases z with
    | nil => exact ⟨rfl, h⟩
    | cons b z =>
      rw [List.nil_append] at h
      exact absurd (hz b List.mem_cons_self) (hy b (by simp [h]))
  | cons a x ih =>
    cases z with
    | nil =>
      rw [List.nil_append] at h
      exact absurd (hx a List.mem_cons_self) (hw a (by simp [← h]))
    | cons b z =>
      obtain ⟨rfl, hrest⟩ := List.cons.inj h
      obtain ⟨rfl, rfl⟩ := ih (List.forall_mem_cons.1 hx).2 (List.forall_mem_cons.1 hz).2 hrest
      exact ⟨rfl, rfl⟩

/-- Two lists that are cut at a mark are equal only part by part. -/
theorem append_cons_inj {mark : α} {x y z w : List α} (hx : mark ∉ x) (hz : mark ∉ z)
    (h : x ++ mark :: y = z ++ mark :: w) : x = z ∧ y = w := by
  obtain ⟨hxz, hrest⟩ := append_inj_of_span (· ≠ mark) (fun a ha heq => hx (heq ▸ ha))
    (fun a ha heq => hz (heq ▸ ha)) (by simp) (by simp) h
  exact ⟨hxz, (List.cons.inj hrest).2⟩

end

namespace Text

/-! ### Splitting at a character or a text -/

/-- What stands before and after the first `sep`, if there is one. -/
def splitFirst (sep : Char) : List Char → Option (List Char × List Char)
  | [] => none
  | c :: r =>
    if c = sep then some ([], r)
    else (splitFirst sep r).map fun parts => (c :: parts.1, parts.2)

/-- What stands before and after the last `sep`, if there is one. -/
def splitLast (sep : Char) : List Char → Option (List Char × List Char)
  | [] => none
  | c :: r =>
    match splitLast sep r with
    | some parts => some (c :: parts.1, parts.2)
    | none => if c = sep then some ([], r) else none

/-- What stands before and after the first occurrence of the text `mark`, if there is one. -/
def splitAtText (mark : List Char) : List Char → Option (List Char × List Char)
  | [] => if mark.isEmpty then some ([], []) else none
  | c :: r =>
    if mark.isPrefixOf (c :: r) then some ([], (c :: r).drop mark.length)
    else (splitAtText mark r).map fun parts => (c :: parts.1, parts.2)

/-- The pieces between separators, in order; a text without a separator is one piece. -/
def pieces (sep : Char) : List Char → List (List Char)
  | [] => [[]]
  | c :: r =>
    if c = sep then [] :: pieces sep r
    else
      match pieces sep r with
      | [] => [[c]]
      | p :: ps => (c :: p) :: ps

/-- The lines of a text: its pieces between newlines, without an empty last piece. -/
def lines (s : List Char) : List (List Char) :=
  match (pieces '\n' s).reverse with
  | [] :: rest => rest.reverse
  | _ => pieces '\n' s

/-- The text without `mark` in front, if it begins with `mark`. -/
def dropMark? (mark s : List Char) : Option (List Char) :=
  if mark.isPrefixOf s then some (s.drop mark.length) else none

@[simp] theorem dropMark?_append (mark s : List Char) : dropMark? mark (mark ++ s) = some s := by
  simp [dropMark?]

/-- The first separator is the one that no other stands before. -/
theorem splitFirst_eq_some_iff {sep : Char} {s before after : List Char} :
    splitFirst sep s = some (before, after) ↔ s = before ++ sep :: after ∧ sep ∉ before := by
  induction s generalizing before with
  | nil => simp [splitFirst]
  | cons c r ih =>
    cases before with
    | nil => by_cases hc : c = sep <;> simp [splitFirst, hc]
    | cons b before =>
      by_cases hc : c = sep
      · simp only [splitFirst, hc, if_true, Option.some.injEq, Prod.mk.injEq, reduceCtorEq,
          false_and, List.cons_append, List.cons.injEq, List.mem_cons, not_or, false_iff]
        exact fun h => h.2.1 h.1.1
      · have hrest := @ih before
        simp only [splitFirst, hc, if_false, Option.map_eq_some_iff, Prod.exists, Prod.mk.injEq,
          List.cons.injEq, List.cons_append, List.mem_cons, not_or]
        constructor
        · rintro ⟨x, y, hsplit, ⟨rfl, rfl⟩, rfl⟩
          exact ⟨⟨rfl, (hrest.1 hsplit).1⟩, Ne.symm hc, (hrest.1 hsplit).2⟩
        · rintro ⟨⟨rfl, hr⟩, -, hbefore⟩
          exact ⟨before, after, hrest.2 ⟨hr, hbefore⟩, ⟨rfl, rfl⟩, rfl⟩

theorem splitFirst_eq_none_iff {sep : Char} {s : List Char} :
    splitFirst sep s = none ↔ sep ∉ s := by
  induction s with
  | nil => simp [splitFirst]
  | cons c r ih =>
    by_cases hc : c = sep
    · simp [splitFirst, hc]
    · simp [splitFirst, hc, ih, Ne.symm hc]

theorem splitLast_eq_none_iff {sep : Char} {s : List Char} :
    splitLast sep s = none ↔ sep ∉ s := by
  induction s with
  | nil => simp [splitLast]
  | cons c r ih =>
    cases hr : splitLast sep r with
    | none =>
      have hnot := ih.1 hr
      by_cases hc : c = sep
      · simp [splitLast, hr, hc]
      · simp [splitLast, hr, hc, hnot, Ne.symm hc]
    | some parts =>
      have hmem : sep ∈ r := Decidable.byContradiction fun hnot => by simp [ih.2 hnot] at hr
      simp [splitLast, hr, hmem]

/-- The last separator is the one that no other stands behind. -/
theorem splitLast_eq_some_iff {sep : Char} {s before after : List Char} :
    splitLast sep s = some (before, after) ↔ s = before ++ sep :: after ∧ sep ∉ after := by
  induction s generalizing before with
  | nil => simp [splitLast]
  | cons c r ih =>
    cases hr : splitLast sep r with
    | none =>
      -- the rest holds no separator, so only the first character can be one
      have hnot := splitLast_eq_none_iff.1 hr
      cases before with
      | nil =>
        by_cases hc : c = sep
        · subst hc
          simp only [splitLast, hr, if_true, Option.some.injEq, Prod.mk.injEq, true_and,
            List.nil_append, List.cons.injEq]
          exact ⟨fun h => ⟨h, h ▸ hnot⟩, And.left⟩
        · simp [splitLast, hr, hc]
      | cons b before =>
        have hsplit : r ≠ before ++ sep :: after := fun h => hnot (by simp [h])
        by_cases hc : c = sep <;> simp [splitLast, hr, hc, hsplit]
    | some parts =>
      cases before with
      | nil =>
        have hmem : sep ∈ r := Decidable.byContradiction fun hnot => by
          simp [splitLast_eq_none_iff.2 hnot] at hr
        simp only [splitLast, hr, Option.some.injEq, Prod.mk.injEq, reduceCtorEq, false_and,
          List.nil_append, List.cons.injEq, false_iff, not_and]
        rintro ⟨rfl, rfl⟩
        exact fun h => h hmem
      | cons b before =>
        have hrest : parts = (before, after) ↔ r = before ++ sep :: after ∧ sep ∉ after := by
          simpa [hr] using @ih before
        simp [splitLast, hr, and_assoc, ← hrest, Prod.ext_iff]

/-- A mark in which a character comes again nowhere behind its beginning does not begin before that
character and reach it. -/
theorem prefix_of_prefix_append {mark v t : List Char} {c : Char} (hc : c ∉ mark.tail)
    (hv : v ≠ []) (h : mark <+: v ++ c :: t) : mark <+: v := by
  rcases List.prefix_or_prefix_of_prefix h (List.prefix_append v (c :: t)) with hmark | ⟨w, rfl⟩
  · exact hmark
  · cases w with
    | nil => simp
    | cons d w =>
      obtain ⟨rfl, -⟩ := List.cons_prefix_cons.1 ((List.prefix_append_right_inj v).1 h)
      refine absurd ?_ hc
      rw [List.tail_append_of_ne_nil hv]
      simp

/-- A mark does not reach over a character that it does not hold. -/
theorem infix_append_cons_iff {mark s t : List Char} {c : Char} (hc : c ∉ mark) :
    mark <:+: s ++ c :: t ↔ mark <:+: s ∨ mark <:+: t := by
  induction s with
  | nil =>
    have hfront : mark <+: c :: t ↔ mark = [] := by
      cases mark with
      | nil => simp
      | cons d r =>
        simp only [List.cons_prefix_cons, reduceCtorEq, iff_false, not_and]
        rintro rfl
        simp at hc
    rw [List.nil_append, List.infix_cons_iff, hfront, List.infix_nil]
  | cons b r ih =>
    have hfront : mark <+: b :: r ++ c :: t ↔ mark <+: b :: r :=
      ⟨prefix_of_prefix_append (fun h => hc (List.mem_of_mem_tail h)) (List.cons_ne_nil b r),
        fun h => h.trans (List.prefix_append _ _)⟩
    rw [List.cons_append] at hfront
    rw [List.cons_append, List.infix_cons_iff, hfront, ih, List.infix_cons_iff, or_assoc]

/-- What holds no mark stays together before a character that is not in the middle of the mark. -/
theorem splitAtText_append_cons {mark s t : List Char} {c : Char} (hc : c ∉ mark.tail)
    (h : ¬ mark <:+: s) :
    splitAtText mark (s ++ c :: t) =
      (splitAtText mark (c :: t)).map fun parts => (s ++ parts.1, parts.2) := by
  induction s with
  | nil => simp
  | cons b r ih =>
    have hfront : ¬ mark <+: b :: r ++ c :: t := fun hmark =>
      h (prefix_of_prefix_append hc (List.cons_ne_nil b r) hmark).isInfix
    have hrest : ¬ mark <:+: r := fun hr => h (hr.trans (List.suffix_cons b r).isInfix)
    rw [List.cons_append] at hfront
    rw [List.cons_append, splitAtText, if_neg (by simpa using hfront), ih hrest, Option.map_map]
    rfl

theorem splitAtText_eq_none_iff {mark s : List Char} :
    splitAtText mark s = none ↔ ¬ mark <:+: s := by
  induction s with
  | nil => simp [splitAtText]
  | cons c r ih =>
    by_cases hfront : mark <+: c :: r
    · simp [splitAtText, hfront, hfront.isInfix]
    · simp [splitAtText, hfront, ih, List.infix_cons_iff]

/-- More text behind the first mark is text behind it. -/
theorem splitAtText_append_of_some {mark s before after : List Char}
    (h : splitAtText mark s = some (before, after)) (t : List Char) :
    splitAtText mark (s ++ t) = some (before, after ++ t) := by
  induction s generalizing before with
  | nil =>
    cases mark with
    | nil =>
      simp only [splitAtText, List.isEmpty_nil, if_true, Option.some.injEq, Prod.mk.injEq] at h
      obtain ⟨rfl, rfl⟩ := h
      cases t <;> simp [splitAtText]
    | cons d ms => simp [splitAtText] at h
  | cons c r ih =>
    by_cases hfront : mark <+: c :: r
    · have happend : mark <+: c :: (r ++ t) := hfront.trans (List.prefix_append (c :: r) t)
      simp only [splitAtText, List.isPrefixOf_iff_prefix, hfront, if_true, Option.some.injEq,
        Prod.mk.injEq] at h
      obtain ⟨rfl, rfl⟩ := h
      rw [List.cons_append, splitAtText, if_pos (by simpa using happend), ← List.cons_append,
        List.drop_append_of_le_length hfront.length_le]
    · simp only [splitAtText, List.isPrefixOf_iff_prefix, hfront, if_false,
        Option.map_eq_some_iff, Prod.exists, Prod.mk.injEq] at h
      obtain ⟨x, y, hxy, rfl, rfl⟩ := h
      have hinfix : mark <:+: r := Decidable.not_not.1 fun hnot => by
        rw [splitAtText_eq_none_iff.2 hnot] at hxy
        cases hxy
      have happend : ¬ mark <+: c :: (r ++ t) := fun hmark =>
        hfront (List.prefix_of_prefix_length_le hmark (List.prefix_append (c :: r) t)
          (Nat.le_succ_of_le hinfix.length_le))
      rw [List.cons_append, splitAtText, if_neg (by simpa using happend), ih hxy]
      rfl

@[simp] theorem pieces_nil (sep : Char) : pieces sep [] = [[]] := rfl

theorem pieces_ne_nil (sep : Char) (s : List Char) : pieces sep s ≠ [] := by
  cases s with
  | nil => simp
  | cons c r =>
    by_cases h : c = sep
    · simp [pieces, h]
    · cases hr : pieces sep r <;> simp [pieces, h, hr]

theorem pieces_of_not_mem {sep : Char} {s : List Char} (h : sep ∉ s) : pieces sep s = [s] := by
  induction s with
  | nil => rfl
  | cons c r ih =>
    rw [List.mem_cons, not_or] at h
    simp [pieces, ih h.2, Ne.symm h.1]

/-- A separator ends the piece before it. -/
theorem pieces_append {sep : Char} {s rest : List Char} (h : sep ∉ s) :
    pieces sep (s ++ sep :: rest) = s :: pieces sep rest := by
  induction s with
  | nil => simp [pieces]
  | cons c s ih =>
    rw [List.mem_cons, not_or] at h
    simp [pieces, Ne.symm h.1, ih h.2]

/-- No piece holds the separator. -/
theorem not_mem_of_mem_pieces {sep : Char} {s p : List Char} (h : p ∈ pieces sep s) : sep ∉ p := by
  induction s generalizing p with
  | nil => simp_all
  | cons c r ih =>
    by_cases hc : c = sep
    · simp only [pieces, hc, if_true, List.mem_cons] at h
      rcases h with rfl | h
      · simp
      · exact ih h
    · cases hr : pieces sep r with
      | nil => exact absurd hr (pieces_ne_nil sep r)
      | cons q qs =>
        simp only [pieces, hc, if_false, hr, List.mem_cons] at h
        rcases h with rfl | h
        · have := ih (p := q) (by simp [hr])
          simp [this, Ne.symm hc]
        · exact ih (by simp [hr, h])

/-- Every character but the separator stands in a piece. -/
theorem exists_mem_pieces {sep c : Char} {s : List Char} (hc : c ∈ s) (hsep : c ≠ sep) :
    ∃ p ∈ pieces sep s, c ∈ p := by
  induction s with
  | nil => cases hc
  | cons a r ih =>
    by_cases ha : a = sep
    · subst ha
      obtain ⟨p, hp, hmem⟩ := ih ((List.mem_cons.1 hc).resolve_left hsep)
      exact ⟨p, by simp [pieces, hp], hmem⟩
    · obtain ⟨q, qs, hr⟩ := List.exists_cons_of_ne_nil (pieces_ne_nil sep r)
      have hpieces : pieces sep (a :: r) = (a :: q) :: qs := by simp [pieces, ha, hr]
      rw [hpieces]
      rcases List.mem_cons.1 hc with rfl | hc
      · exact ⟨_, List.mem_cons_self, List.mem_cons_self⟩
      · obtain ⟨p, hp, hmem⟩ := ih hc
        rw [hr] at hp
        rcases List.mem_cons.1 hp with rfl | hp
        · exact ⟨_, List.mem_cons_self, List.mem_cons_of_mem a hmem⟩
        · exact ⟨p, List.mem_cons_of_mem _ hp, hmem⟩

/-- The characters of a piece are characters of the text. -/
theorem mem_of_mem_pieces {sep c : Char} {s p : List Char} (hp : p ∈ pieces sep s) (hc : c ∈ p) :
    c ∈ s := by
  induction s generalizing p with
  | nil => simp_all
  | cons a r ih =>
    by_cases ha : a = sep
    · simp only [pieces, ha, if_true, List.mem_cons] at hp
      rcases hp with rfl | hp
      · cases hc
      · exact List.mem_cons_of_mem a (ih hp hc)
    · cases hr : pieces sep r with
      | nil => exact absurd hr (pieces_ne_nil sep r)
      | cons q qs =>
        simp only [pieces, ha, if_false, hr, List.mem_cons] at hp
        rcases hp with rfl | hp
        · rcases List.mem_cons.1 hc with rfl | hq
          · exact List.mem_cons_self
          · exact List.mem_cons_of_mem a (ih (p := q) (by simp [hr]) hq)
        · exact List.mem_cons_of_mem a (ih (by simp [hr, hp]) hc)

theorem mem_pieces_of_mem_lines {s line : List Char} (h : line ∈ lines s) :
    line ∈ pieces '\n' s := by
  unfold lines at h
  split at h
  next rest hreverse =>
    rw [← List.mem_reverse, hreverse]
    exact List.mem_cons_of_mem _ (List.mem_reverse.1 h)
  · exact h

/-- No line holds a newline. -/
theorem newline_not_mem_of_mem_lines {s line : List Char} (h : line ∈ lines s) : '\n' ∉ line :=
  not_mem_of_mem_pieces (mem_pieces_of_mem_lines h)

/-- Joining the pieces with the separator gives the text back. -/
theorem intercalate_pieces (sep : Char) (s : List Char) :
    List.intercalate [sep] (pieces sep s) = s := by
  induction s with
  | nil => rfl
  | cons c r ih =>
    cases hr : pieces sep r with
    | nil => exact absurd hr (pieces_ne_nil sep r)
    | cons q qs =>
      by_cases hc : c = sep
      · subst hc
        rw [hr] at ih
        simp [pieces, hr, List.intercalate_cons_cons, ih]
      · rw [hr] at ih
        cases qs with
        | nil => simp_all [pieces]
        | cons q' qs =>
          simp_all [pieces, List.intercalate_cons_cons]

/-- The pieces are what stands between the separators. -/
theorem pieces_eq_splitOn (sep : Char) (s : List Char) : pieces sep s = s.splitOn sep := by
  have hpieces : (List.intercalate [sep] (pieces sep s)).splitOn sep = pieces sep s :=
    List.splitOn_intercalate sep (fun _ => not_mem_of_mem_pieces) (pieces_ne_nil sep s)
  rw [← hpieces, intercalate_pieces]

end Text

end Sprocket
