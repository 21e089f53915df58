import Mathlib.Data.Set.List
import Sprocket.Proofs.Places

/-!
# The search for settings is exact

A word is set to a value without an equals sign at certain places of a text, and the search finds
the value at each of them, in the order of the text. No two of these places reach into each other,
as between the beginning of a key and its value no other key can begin. So the places are in the
same order as the values, although the spellings are of different lengths.

* `Span.Covers`: a span that is filled by a value;
* `Locate.Site`: a place where a key is set to a value;
* `Locate.Site.offset_le_position`: a site that begins later begins behind the value;
* `Locate.exists_sites`, `Locate.search_finds_every_site`: what is found.
-/

namespace Sprocket

namespace Text

/-- The bytes of a string are those of its characters. -/
theorem utf8ByteSize_eq_byteLength (s : String) : s.utf8ByteSize = byteLength s.toList := by
  have hchars : ∀ cs : List Char, (String.ofList cs).utf8ByteSize = byteLength cs := by
    intro cs
    induction cs with
    | nil => rfl
    | cons c r ih =>
      rw [← List.singleton_append, String.ofList_append, String.utf8ByteSize_append, ih]
      simp [byteLength]
  rw [← hchars, String.ofList_toList]

/-- Of two texts at the front of one text, the one of fewer bytes has fewer characters. -/
theorem length_lt_of_byteLength_lt {s t u : List Char} (hs : s <+: u) (ht : t <+: u)
    (h : byteLength s < byteLength t) : s.length < t.length := by
  by_contra hle
  obtain ⟨rest, rfl⟩ := List.prefix_of_prefix_length_le ht hs (Nat.le_of_not_lt hle)
  rw [byteLength_append] at h
  omega

end Text

/-! ### Spans -/

/-- A span lies in a text, from one boundary between characters to another, and its bytes are those
of a value. -/
structure Span.Covers (span : Span) (source value : String) : Prop where
  length_eq : span.length = value.utf8ByteSize
  start_valid : String.Pos.Raw.IsValid source ⟨span.offset⟩
  stop_valid : String.Pos.Raw.IsValid source ⟨span.offset + span.length⟩
  bytes_eq : source.toUTF8.extract span.offset (span.offset + span.length) = value.toUTF8

theorem Span.covers_append (before value after : String) :
    Span.Covers ⟨before.utf8ByteSize, value.utf8ByteSize⟩ (before ++ value ++ after) value where
  length_eq := rfl
  start_valid := by
    rw [String.Pos.Raw.isValid_iff_exists_append]
    exact ⟨before, value ++ after, String.append_assoc, rfl⟩
  stop_valid := by
    rw [String.Pos.Raw.isValid_iff_exists_append]
    refine ⟨before ++ value, after, rfl, ?_⟩
    rw [String.Pos.Raw.ext_iff]
    exact String.utf8ByteSize_append.symm
  bytes_eq := by
    show (before ++ value ++ after).toByteArray.extract before.toByteArray.size
      (before.toByteArray.size + value.toByteArray.size) = value.toByteArray
    rw [String.append_assoc, String.toByteArray_append, String.toByteArray_append]
    have hskip := @ByteArray.extract_append_size_add before.toByteArray
      (value.toByteArray ++ after.toByteArray) 0 value.toByteArray.size
    rw [Nat.add_zero] at hskip
    rw [hskip, ByteArray.extract_append_eq_left rfl]

namespace Locate

open Text

/-! ### Signs and quotes -/

theorem mem_frames_iff {key : List Char} {f : List Char × Char} :
    f ∈ frames key ↔ ∃ sign ∈ [" = ", "="], ∃ quote ∈ ["\"", "'"],
      f.1 = key ++ (sign.toList ++ quote.toList) ∧ [f.2] = quote.toList := by
  obtain ⟨front, last⟩ := f
  simp only [frames, List.mem_cons, List.not_mem_nil, or_false, Prod.mk.injEq, exists_eq_or_imp,
    exists_eq_left, List.singleton_inj, String.reduceToList, List.cons_append, List.nil_append]
  tauto

theorem startsKey_iff {before : Option Char} :
    startsKey before = true ↔ ∀ c ∈ before, isWordChar c = false := by
  cases before <;> simp [startsKey]

/-- What stands behind a key tells which sign and which quote come first. -/
theorem opening_inj {sign quote sign' quote' : String} {rest rest' : List Char}
    (hsign : sign ∈ [" = ", "="]) (hquote : quote ∈ ["\"", "'"]) (hsign' : sign' ∈ [" = ", "="])
    (hquote' : quote' ∈ ["\"", "'"])
    (h : sign.toList ++ quote.toList ++ rest = sign'.toList ++ quote'.toList ++ rest') :
    sign = sign' ∧ quote = quote' := by
  simp only [List.mem_cons, List.not_mem_nil, or_false] at hsign hquote hsign' hquote'
  rcases hsign with rfl | rfl <;> rcases hquote with rfl | rfl <;>
    rcases hsign' with rfl | rfl <;> rcases hquote' with rfl | rfl <;> simp at h ⊢

/-- No key begins between the beginning of a key and its value: inside the key a word goes on, and
behind it there is no character of words. -/
theorem not_word_of_split {key between front back : List Char}
    (hkey : ∀ c ∈ key, isWordChar c = true) (hbetween : ∀ c ∈ between, isWordChar c = false)
    (hsplit : key ++ between = front ++ back) (hfront : front ≠ [])
    (hfree : ∀ c ∈ front.getLast?, isWordChar c = false) (hback : back ≠ []) :
    isWordChar (back.head hback) = false := by
  rcases List.append_eq_append_iff.1 hsplit with ⟨rest, rfl, hrest⟩ | ⟨rest, hrest, -⟩
  · refine hbetween _ ?_
    rw [hrest]
    exact List.mem_append_right rest (List.head_mem hback)
  · have hword := hkey (front.getLast hfront) (by simp [hrest])
    rw [hfree _ (List.getLast?_eq_some_getLast hfront)] at hword
    cases hword

/-! ### Sites -/

/-- A place where a text sets a key to a value: in quotes of either kind, with a space on each side
of the equals sign or none. The key is not the tail of a longer one. -/
@[ext]
structure Site (source key value : String) where
  before : String
  sign : String
  quote : String
  after : String
  source_eq : source = before ++ key ++ sign ++ quote ++ value ++ (quote ++ after)
  sign_mem : sign ∈ [" = ", "="]
  quote_mem : quote ∈ ["\"", "'"]
  free : ∀ c ∈ before.toList.getLast?, isWordChar c = false

namespace Site

variable {source key value : String}

/-- The byte that the key begins at. -/
def position (s : Site source key value) : Nat := s.before.utf8ByteSize

/-- The stretch of the value, behind its opening quote. -/
def span (s : Site source key value) : Span :=
  ⟨(s.before ++ key ++ s.sign ++ s.quote).utf8ByteSize, value.utf8ByteSize⟩

theorem covers_span (s : Site source key value) : s.span.Covers source value := by
  have hcovers := Span.covers_append (s.before ++ key ++ s.sign ++ s.quote) value
    (s.quote ++ s.after)
  rwa [← s.source_eq] at hcovers

/-- What stands between the key and its value, on characters. -/
def between (s : Site source key value) : List Char := s.sign.toList ++ s.quote.toList

theorem not_word_of_mem_between (s : Site source key value) :
    ∀ c ∈ s.between, isWordChar c = false := by
  have hall : ∀ sign ∈ [" = ", "="], ∀ quote ∈ ["\"", "'"],
      (sign.toList ++ quote.toList).all (!isWordChar ·) = true := by
    decide
  intro c hc
  simpa using List.all_eq_true.1 (hall s.sign s.sign_mem s.quote s.quote_mem) c hc

theorem toList_source (s : Site source key value) :
    source.toList = s.before.toList ++ (key.toList ++ (s.between ++ (value.toList ++
      (s.quote.toList ++ s.after.toList)))) := by
  have hsource := congrArg String.toList s.source_eq
  simpa only [String.toList_append, List.append_assoc, between] using hsource

theorem position_eq (s : Site source key value) :
    s.position = byteLength s.before.toList := utf8ByteSize_eq_byteLength s.before

theorem offset_eq (s : Site source key value) :
    s.span.offset = byteLength (s.before.toList ++ (key.toList ++ s.between)) := by
  rw [span, utf8ByteSize_eq_byteLength]
  simp only [String.toList_append, List.append_assoc, between]

theorem prefix_source (s : Site source key value) :
    s.before.toList ++ (key.toList ++ s.between) <+: source.toList :=
  ⟨value.toList ++ (s.quote.toList ++ s.after.toList), by
    rw [s.toList_source]
    simp only [List.append_assoc]⟩

theorem before_prefix_source (s : Site source key value) : s.before.toList <+: source.toList :=
  (List.prefix_append _ _).trans s.prefix_source

/-- There is one site at a byte. -/
theorem eq_of_position_eq {s t : Site source key value} (h : s.position = t.position) : s = t := by
  rw [s.position_eq, t.position_eq] at h
  have hbefore := eq_of_prefix_of_byteLength_eq s.before_prefix_source t.before_prefix_source h
  have hrest := s.toList_source.symm.trans t.toList_source
  rw [hbefore, List.append_cancel_left_eq, List.append_cancel_left_eq] at hrest
  obtain ⟨hsign, hquote⟩ := opening_inj s.sign_mem s.quote_mem t.sign_mem t.quote_mem hrest
  rw [between, between, hsign, hquote] at hrest
  simp only [List.append_cancel_left_eq] at hrest
  exact Site.ext (String.toList_inj.1 hbefore) hsign hquote (String.toList_inj.1 hrest)

/-! ### Order -/

section

variable {s t : Site source key value} (hkey : ∀ c ∈ key.toList, isWordChar c = true)
  (hne : key ≠ "")

include hkey hne

/-- A site that begins later begins behind the quote that opens the value. -/
theorem offset_le_position (h : s.position < t.position) : s.span.offset ≤ t.position := by
  by_contra hover
  rw [s.position_eq, t.position_eq] at h
  rw [s.offset_eq, t.position_eq, Nat.not_le] at hover
  have hlt := length_lt_of_byteLength_lt s.before_prefix_source t.before_prefix_source h
  have hinside := length_lt_of_byteLength_lt t.before_prefix_source s.prefix_source hover
  obtain ⟨front, back, hbefore, hfront, hback, hsplit⟩ := exists_of_overlap s.prefix_source
    t.before_prefix_source hlt (by rwa [List.length_append] at hinside)
  have hkeyNe : key.toList ≠ [] := fun hnil => hne (String.toList_eq_nil_iff.1 hnil)
  have hlast : t.before.toList.getLast? = front.getLast? := by
    rw [hbefore, List.getLast?_append_of_ne_nil _ hfront]
  have hnot := not_word_of_split hkey s.not_word_of_mem_between hsplit hfront (hlast ▸ t.free)
    hback
  -- the later key begins where the earlier one, or what opens its value, goes on
  have hs := s.prefix_source
  rw [hsplit, ← List.append_assoc, ← hbefore] at hs
  obtain ⟨rest, hrest⟩ := t.prefix_source
  rw [← hrest, List.append_assoc, List.append_assoc, List.prefix_append_right_inj] at hs
  have hhead : back.head hback = key.toList.head hkeyNe := by
    rw [hs.head hback, List.head_append_of_ne_nil]
  have hword := hkey (key.toList.head hkeyNe) (List.head_mem hkeyNe)
  rw [← hhead, hnot] at hword
  cases hword

theorem offset_lt (h : s.position < t.position) : s.span.offset < t.span.offset := by
  have hsize : 0 < key.utf8ByteSize :=
    Nat.pos_of_ne_zero fun hzero => hne (String.utf8ByteSize_eq_zero_iff.1 hzero)
  calc s.span.offset
      ≤ t.position := offset_le_position hkey hne h
    _ < t.span.offset := by
      simp only [span, position, String.utf8ByteSize_append]
      omega

theorem eq_of_offset_eq (h : s.span.offset = t.span.offset) : s = t := by
  rcases Nat.lt_trichotomy s.position t.position with hlt | heq | hgt
  · exact absurd h (Nat.ne_of_lt (offset_lt hkey hne hlt))
  · exact eq_of_position_eq heq
  · exact absurd h (Nat.ne_of_gt (offset_lt hkey hne hgt))

/-- The keys are in the order of the values. -/
theorem position_lt (h : s.span.offset < t.span.offset) : s.position < t.position := by
  rcases Nat.lt_trichotomy s.position t.position with hlt | heq | hgt
  · exact hlt
  · exact absurd (congrArg (·.span.offset) (eq_of_position_eq heq)) (Nat.ne_of_lt h)
  · exact absurd (offset_lt hkey hne hgt) (Nat.lt_asymm h)

end

/-! ### What is found -/

/-- Sites are hits of the search. -/
theorem hit (s : Site source key value) :
    Hit source.toList key.toList value.toList s.span.offset := by
  obtain ⟨last, hlast⟩ : ∃ last, [last] = s.quote.toList := by
    have hall : ∀ quote ∈ ["\"", "'"], ∃ last, [last] = quote.toList := by simp
    exact hall s.quote s.quote_mem
  refine ⟨(key.toList ++ s.between, last),
    mem_frames_iff.2 ⟨s.sign, s.sign_mem, s.quote, s.quote_mem, rfl, hlast⟩, s.before.toList, ?_,
    startsKey_iff.2 s.free, s.offset_eq⟩
  refine ⟨s.after.toList, ?_⟩
  rw [s.toList_source, hlast]
  simp only [List.append_assoc]

end Site

variable {source key value : String}

/-- Hits of the search are sites. -/
theorem exists_site_of_hit {offset : Nat} (h : Hit source.toList key.toList value.toList offset) :
    ∃ s : Site source key value, s.span.offset = offset := by
  obtain ⟨f, hf, before, ⟨rest, hrest⟩, hstarts, rfl⟩ := h
  obtain ⟨sign, hsign, quote, hquote, hfront, hlast⟩ := mem_frames_iff.1 hf
  rw [hlast, hfront] at hrest
  let s : Site source key value :=
    { before := String.ofList before
      sign
      quote
      after := String.ofList rest
      source_eq := by
        rw [← String.toList_inj, ← hrest]
        simp only [String.toList_append, String.toList_ofList, List.append_assoc]
      sign_mem := hsign
      quote_mem := hquote
      free := by
        rw [String.toList_ofList]
        exact startsKey_iff.1 hstarts }
  refine ⟨s, ?_⟩
  rw [s.offset_eq, hfront, Site.between, String.toList_ofList]

/-- The search gives the spans of all sites, in the order of the text. -/
theorem exists_sites (source : String) (hkey : ∀ c ∈ key.toList, isWordChar c = true)
    (hne : key ≠ "") (hvalue : '=' ∉ value.toList) :
    ∃ sites : List (Site source key value), (∀ s, s ∈ sites) ∧
      sites.Pairwise (fun s t => s.position < t.position) ∧
      ∀ n, valueSpan? source key value n = sites[n]?.map Site.span := by
  have hhits : ∀ offset ∈ valueOffsets source.toList key.toList value.toList,
      offset ∈ Set.range fun s : Site source key value => s.span.offset := by
    intro offset hoffset
    exact exists_site_of_hit (hit_of_mem hoffset)
  obtain ⟨sites, hsites⟩ : valueOffsets source.toList key.toList value.toList ∈
      Set.range (List.map fun s : Site source key value => s.span.offset) := by
    rw [Set.range_list_map]
    exact hhits
  refine ⟨sites, fun s => ?_, ?_, fun n => ?_⟩
  · have hfound := mem_of_hit hkey hvalue s.hit
    rw [← hsites] at hfound
    obtain ⟨t, ht, hoffset⟩ := List.mem_map.1 hfound
    rwa [← Site.eq_of_offset_eq hkey hne hoffset]
  · have hsorted := pairwise_valueOffsets source.toList key.toList value.toList
    rw [← hsites, List.pairwise_map] at hsorted
    exact hsorted.imp (Site.position_lt hkey hne)
  · rw [valueSpan?, ← hsites, List.getElem?_map, Option.map_map, ← utf8ByteSize_eq_byteLength]
    rfl

/-- **Exact search.** A text sets a word to a value without an equals sign at certain sites, in the
order of the bytes they begin at. The search for such a setting behind a number of others succeeds
exactly if there are more sites than that; it gives the span of the value at the site of that
number, which the value fills, so that a later site has a later span. -/
theorem search_finds_every_site (source key value : String)
    (hkey : ∀ c ∈ key.toList, isWordChar c = true) (hne : key ≠ "")
    (hvalue : '=' ∉ value.toList) :
    ∃ sites : List (Site source key value),
      (∀ s, s ∈ sites) ∧ sites.Pairwise (fun s t => s.position < t.position) ∧
      ∀ n,
        ((valueSpan? source key value n).isSome = true ↔ n < sites.length) ∧
        ∀ span, valueSpan? source key value n = some span →
          (∃ s, sites[n]? = some s ∧ s.span = span) ∧ span.Covers source value ∧
          ∀ m earlier, m < n → valueSpan? source key value m = some earlier →
            earlier.offset < span.offset := by
  obtain ⟨sites, hall, hsorted, hspans⟩ := exists_sites source hkey hne hvalue
  refine ⟨sites, hall, hsorted, fun n => ⟨?_, fun span hspan => ?_⟩⟩
  · rw [hspans, Option.isSome_map]
    simp
  · rw [hspans, Option.map_eq_some_iff] at hspan
    obtain ⟨s, hs, rfl⟩ := hspan
    refine ⟨⟨s, hs, rfl⟩, s.covers_span, fun m earlier hm hearlier => ?_⟩
    rw [hspans, Option.map_eq_some_iff] at hearlier
    obtain ⟨t, ht, rfl⟩ := hearlier
    obtain ⟨hmLt, rfl⟩ := List.getElem?_eq_some_iff.1 ht
    obtain ⟨hnLt, rfl⟩ := List.getElem?_eq_some_iff.1 hs
    exact Site.offset_lt hkey hne (List.pairwise_iff_getElem.1 hsorted m n hmLt hnLt hm)

/-- A text with a longer key, and with a setting behind a letter that is no character of words. -/
def roster : String := "rename = \"Zoë\"\nname = \"Zoë\" # ëname='Zoë'\n"

/-- There are two settings of `name` in the roster. -/
theorem search_finds_every_site_roster :
    (∀ c ∈ "name".toList, isWordChar c = true) ∧ "name" ≠ "" ∧ '=' ∉ "Zoë".toList ∧
    ∃ sites : List (Site roster "name" "Zoë"),
      (∀ s, s ∈ sites) ∧ sites.Pairwise (fun s t => s.position < t.position) ∧
      sites.map Site.span = [⟨24, 4⟩, ⟨40, 4⟩] ∧
      ∀ n span, valueSpan? roster "name" "Zoë" n = some span → span.Covers roster "Zoë" := by
  have hkey : ∀ c ∈ "name".toList, isWordChar c = true := List.all_eq_true.1 (by decide)
  have hvalue : '=' ∉ "Zoë".toList := by decide
  obtain ⟨sites, hall, hsorted, hsearch⟩ :=
    search_finds_every_site roster "name" "Zoë" hkey (by decide) hvalue
  have hfirst : valueSpan? roster "name" "Zoë" 0 = some ⟨24, 4⟩ := by decide
  have hsecond : valueSpan? roster "name" "Zoë" 1 = some ⟨40, 4⟩ := by decide
  have hthird : valueSpan? roster "name" "Zoë" 2 = none := by decide
  have hmore : 1 < sites.length := (hsearch 1).1.1 (by rw [hsecond]; rfl)
  have hless : ¬ 2 < sites.length := fun h => by
    have hsome := (hsearch 2).1.2 h
    rw [hthird] at hsome
    cases hsome
  have hcovers : ∀ n span, valueSpan? roster "name" "Zoë" n = some span →
      span.Covers roster "Zoë" := fun n span h => ((hsearch n).2 span h).2.1
  refine ⟨hkey, by decide, hvalue, sites, hall, hsorted, ?_, hcovers⟩
  obtain ⟨s, t, rfl⟩ := List.length_eq_two.1 (Nat.le_antisymm (Nat.le_of_not_lt hless) hmore)
  obtain ⟨⟨u, hu, hs⟩, -⟩ := (hsearch 0).2 _ hfirst
  obtain ⟨⟨v, hv, ht⟩, -⟩ := (hsearch 1).2 _ hsecond
  obtain rfl : s = u := Option.some.inj hu
  obtain rfl : t = v := Option.some.inj hv
  rw [List.map_cons, List.map_singleton, hs, ht]

end Locate

end Sprocket
