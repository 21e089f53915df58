import Sprocket.Connection.Keywords
import Sprocket.Proofs.Failures
import Sprocket.Report.Check

/-!
# What a report hides

The report on a manifest shows the addresses of its databases. Of an address
`scheme://credentials@host` it shows the scheme and the host, whatever the credentials are. A
connection string of keywords is cut in the same places, so that its password is hidden only where
it happens to stand where credentials would.

* `Check.Frame`: a manifest but for one address;
* `Frame.report_eq_iff`: two such manifests are reported alike exactly if the addresses are shown
  alike;
* `redact_credentials`, `Frame.report_hides_credentials`: credentials are hidden;
* `Connection.Keywords.Screened`, `redact_password`: a password among keywords is shown in full, or
  not at all;
* `Frame.password_shown_iff`: which passwords are hidden.
-/

namespace Sprocket

namespace Text

/-- What stands behind the last `sep`; without one, the whole text. -/
def behindLast (sep : Char) (s : List Char) : List Char :=
  ((splitLast sep s).map Prod.snd).getD s

/-- What stands before a separator does not matter for what stands behind the last one. -/
theorem splitLast_append_cons (sep : Char) (s t : List Char) :
    ∃ front, splitLast sep (s ++ sep :: t) = some (front, behindLast sep t) := by
  unfold behindLast
  cases h : splitLast sep t with
  | none => exact ⟨s, splitLast_eq_some_iff.2 ⟨rfl, splitLast_eq_none_iff.1 h⟩⟩
  | some parts =>
    obtain ⟨rfl, hbehind⟩ := splitLast_eq_some_iff.1 h
    exact ⟨s ++ sep :: parts.1, splitLast_eq_some_iff.2 ⟨by simp, hbehind⟩⟩

/-- Text without a separator that follows a text with one stands behind the last one. -/
theorem splitLast_append_of_mem {sep : Char} {s t : List Char} (hs : sep ∈ s) (ht : sep ∉ t) :
    ∃ front, splitLast sep (s ++ t) = some (front, behindLast sep s ++ t) := by
  unfold behindLast
  cases h : splitLast sep s with
  | none => exact absurd hs (splitLast_eq_none_iff.1 h)
  | some parts =>
    obtain ⟨rfl, hbehind⟩ := splitLast_eq_some_iff.1 h
    exact ⟨parts.1, splitLast_eq_some_iff.2 ⟨by simp, by simp [hbehind, ht]⟩⟩

end Text

namespace Check

/-! ### Manifests but for an address -/

/-- What stands around the address of a database in a manifest: the group it belongs to, which takes
the address from no variable, and the groups before and after that one. -/
structure Frame where
  before : List ContextConfig
  config : ContextConfig
  after : List ContextConfig

namespace Frame

/-- The manifest with an address. -/
def manifest (f : Frame) (url : String) : Manifest :=
  ⟨f.before ++ { f.config with database := ⟨some url, none⟩ } :: f.after⟩

/-- Manifests that differ in one address are reported alike exactly if it is shown alike. -/
theorem report_eq_iff (f : Frame) (url url' path : String) :
    report (f.manifest url) path = report (f.manifest url') path ↔ redact url = redact url' := by
  have hwarnings : warnings (f.manifest url) = warnings (f.manifest url') := by
    simp only [warnings, manifest, List.flatMap_append, List.flatMap_cons]
    rfl
  rw [report, report, hwarnings]
  simp [manifest, summary, Summary.lines, databaseText, DatabaseConfig.source?]

/-- The report shows what is left of the address. -/
theorem redact_mem_report (f : Frame) (url path : String) :
    .keyValue "database" (redact url) ∈ report (f.manifest url) path := by
  simp [report, manifest, summary, Summary.lines, databaseText, DatabaseConfig.source?]

end Frame

/-! ### Addresses -/

theorem redact_of_unmarked {url : String} (h : ¬ "://".toList <:+: url.toList) :
    redact url = url := by
  rw [redact, Text.splitAtText_eq_none_iff.2 h]

theorem redact_of_split {url : String} {scheme rest front host : List Char}
    (h : Text.splitAtText "://".toList url.toList = some (scheme, rest))
    (hlast : Text.splitLast '@' rest = some (front, host)) :
    redact url = String.ofList (scheme ++ "://***@".toList ++ host) := by
  simp only [redact, h, hlast]

theorem redact_of_not_mem {url : String} {scheme rest : List Char}
    (h : Text.splitAtText "://".toList url.toList = some (scheme, rest)) (hat : '@' ∉ rest) :
    redact url = url := by
  simp only [redact, h, Text.splitLast_eq_none_iff.2 hat]

/-- An address is shown without its credentials, whatever characters they hold. -/
theorem redact_credentials {scheme : String} (h : ¬ "://".toList <:+: scheme.toList)
    (credentials rest : String) :
    redact (scheme ++ "://" ++ credentials ++ "@" ++ rest) =
      scheme ++ "://***@" ++ String.ofList (Text.behindLast '@' rest.toList) := by
  have hsplit : Text.splitAtText "://".toList
      (scheme ++ "://" ++ credentials ++ "@" ++ rest).toList =
      some (scheme.toList, credentials.toList ++ '@' :: rest.toList) := by
    have hmark : (':' : Char) ∉ "://".toList.tail := by decide
    have hurl : (scheme ++ "://" ++ credentials ++ "@" ++ rest).toList =
        scheme.toList ++ ':' :: ("//".toList ++ (credentials.toList ++ '@' :: rest.toList)) := by
      simp
    rw [hurl, Text.splitAtText_append_cons hmark h]
    simp [Text.splitAtText]
  obtain ⟨front, hlast⟩ := Text.splitLast_append_cons '@' credentials.toList rest.toList
  rw [redact_of_split hsplit hlast]
  simp [← String.toList_inj]

/-- **Credentials.** Where the address of a database is `scheme://credentials@rest`, the report on
the manifest does not depend on the credentials, and of the rest it shows what stands behind the
last `@`. -/
theorem Frame.report_hides_credentials (f : Frame) {scheme : String}
    (hscheme : ¬ "://".toList <:+: scheme.toList) (rest path : String) :
    (∀ c c' : String,
      report (f.manifest (scheme ++ "://" ++ c ++ "@" ++ rest)) path =
        report (f.manifest (scheme ++ "://" ++ c' ++ "@" ++ rest)) path) ∧
    ∀ c : String,
      .keyValue "database"
          (scheme ++ "://***@" ++ String.ofList (Text.behindLast '@' rest.toList)) ∈
        report (f.manifest (scheme ++ "://" ++ c ++ "@" ++ rest)) path := by
  constructor
  · intro c c'
    rw [f.report_eq_iff, redact_credentials hscheme, redact_credentials hscheme]
  · intro c
    rw [← redact_credentials hscheme c]
    exact f.redact_mem_report _ path

/-- The text of a manifest of an empty group with an address. -/
def kioskText (url : String) : String :=
  "[[contexts]]\nname='Kiosk'\nnamespace='Acme'\ndatabase.url='" ++ url ++
    "'\noutput.host='a.cs'\nprocedures=[]\n"

/-- That manifest but for the address. -/
def kiosk : Frame := ⟨[], ⟨"Kiosk", "Acme", ⟨none, none⟩, ⟨"a.cs", none, false, none⟩, []⟩, []⟩

set_option maxRecDepth 4000 in
/-- A password with an `@` and a mark of its own is hidden as well as none. -/
theorem Frame.report_hides_credentials_kiosk :
    ¬ "://".toList <:+: "db".toList ∧
    Manifest.read (kioskText "db://me:s@c://t@host") "kiosk.toml" =
      .ok (kiosk.manifest "db://me:s@c://t@host") ∧
    Manifest.read (kioskText "db://root@host") "kiosk.toml" =
      .ok (kiosk.manifest "db://root@host") ∧
    report (kiosk.manifest "db://me:s@c://t@host") "kiosk.toml" =
      report (kiosk.manifest "db://root@host") "kiosk.toml" ∧
    .keyValue "database" "db://***@host" ∈
      report (kiosk.manifest "db://root@host") "kiosk.toml" := by
  have hcolon : ':' ∉ "db".toList := by decide
  have hscheme : ¬ "://".toList <:+: "db".toList := fun h => hcolon (h.subset (by simp))
  obtain ⟨hsame, hshown⟩ := kiosk.report_hides_credentials hscheme "host" "kiosk.toml"
  exact ⟨hscheme, Manifest.read_of_decoded (by decide +kernel) rfl _,
    Manifest.read_of_decoded (by decide +kernel) rfl _, hsame "me:s@c://t" "root",
    hshown "root"⟩

end Check

/-! ### Passwords among keywords -/

namespace Connection.Keywords

/-- Settings as a connection string: each is written `key=value`, and a space stands between two of
them. -/
def text (settings : List Setting) : String :=
  " ".intercalate (settings.map fun s => s.1 ++ "=" ++ s.2)

/-- What stands before and after one setting among others. -/
theorem exists_text_eq (before after : List Setting) :
    ∃ lead trail : String,
      (lead = "" ∧ before = [] ∨ lead = text before ++ " ") ∧
      (trail = "" ∧ after = [] ∨ trail = " " ++ text after) ∧
      ∀ s, text (before ++ s :: after) = lead ++ (s.1 ++ "=" ++ s.2) ++ trail := by
  obtain ⟨trail, htrail, hcons⟩ : ∃ trail, (trail = "" ∧ after = [] ∨ trail = " " ++ text after) ∧
      ∀ s : Setting, text (s :: after) = s.1 ++ "=" ++ s.2 ++ trail := by
    cases after with
    | nil => exact ⟨"", .inl ⟨rfl, rfl⟩, fun s => by simp [text]⟩
    | cons a rest =>
      refine ⟨" " ++ text (a :: rest), .inr rfl, fun s => ?_⟩
      simp [text, String.intercalate_cons_cons, String.append_assoc]
  cases before with
  | nil => exact ⟨"", trail, .inl ⟨rfl, rfl⟩, htrail, fun s => by simp [hcons]⟩
  | cons b rest =>
    refine ⟨text (b :: rest) ++ " ", trail, .inr rfl, htrail, fun s => ?_⟩
    have happend : text (b :: rest ++ s :: after) =
        text (b :: rest) ++ " " ++ text (s :: after) := by
      rw [text, List.map_append, String.intercalate_append_of_ne_nil (by simp) (by simp)]
      rfl
    simp only [happend, hcons, String.append_assoc]

/-- A setting is screened by those around it: what stands before it passes for a scheme, and what
stands after it holds the `@` of a host. -/
def Screened (before after : List Setting) : Prop :=
  "://".toList <:+: (text before).toList ∧ '@' ∈ (text after).toList

/-- A value that holds no mark of an address. -/
def Unmarked (value : String) : Prop :=
  ¬ "://".toList <:+: value.toList ∧ '@' ∉ value.toList

instance (value : String) : Decidable (Unmarked value) := inferInstanceAs (Decidable (_ ∧ _))

instance (before after : List Setting) : Decidable (Screened before after) :=
  inferInstanceAs (Decidable (_ ∧ _))

end Connection.Keywords

namespace Check

/-! ### What is shown of a password -/

open Connection.Keywords

/-- What stands between a scheme and the `@` of a host is not shown. -/
theorem exists_redact_of_screened {front back : String} (hmark : "://".toList <:+: front.toList)
    (hat : '@' ∈ back.toList) : ∃ shown, ∀ value, redact (front ++ value ++ back) = shown := by
  obtain ⟨user, host, hback⟩ := List.append_of_mem hat
  cases hfront : Text.splitAtText "://".toList front.toList with
  | none => exact absurd hmark (Text.splitAtText_eq_none_iff.1 hfront)
  | some parts =>
    obtain ⟨scheme, rest⟩ := parts
    refine ⟨String.ofList (scheme ++ "://***@".toList ++ Text.behindLast '@' host), fun value => ?_⟩
    obtain ⟨credentials, hlast⟩ :=
      Text.splitLast_append_cons '@' (rest ++ value.toList ++ user) host
    have hsplit : Text.splitAtText "://".toList (front ++ value ++ back).toList =
        some (scheme, rest ++ value.toList ++ user ++ '@' :: host) := by
      simpa [hback] using Text.splitAtText_append_of_some hfront (value.toList ++ back.toList)
    exact redact_of_split hsplit hlast

/-- A value without marks is shown in full where no scheme stands before it. -/
theorem exists_redact_of_no_scheme {lead back : String} (hlead : ¬ "://".toList <:+: lead.toList)
    (hback : back = "" ∨ ∃ rest, back = " " ++ rest) :
    ∃ trail, ∀ value, Unmarked value →
      redact (lead ++ "=" ++ value ++ back) = lead ++ "=" ++ value ++ trail := by
  have hmark : ∀ c ∈ [' ', '='], c ∉ "://".toList.tail ∧ c ∉ "://".toList := by
    rw [List.forall_mem_cons, List.forall_mem_singleton]
    decide
  have hfront : ∀ value, Unmarked value → ¬ "://".toList <:+: (lead ++ "=" ++ value).toList := by
    intro value hvalue
    have hchars : (lead ++ "=" ++ value).toList = lead.toList ++ '=' :: value.toList := by simp
    rw [hchars, Text.infix_append_cons_iff (hmark '=' (by simp)).2]
    exact not_or.2 ⟨hlead, hvalue.1⟩
  obtain rfl | ⟨rest, rfl⟩ := hback
  · refine ⟨"", fun value hvalue => redact_of_unmarked ?_⟩
    rw [String.append_empty]
    exact hfront value hvalue
  · -- the space keeps a mark from reaching over the end of the value
    have hsplit : ∀ value, Unmarked value →
        Text.splitAtText "://".toList (lead ++ "=" ++ value ++ (" " ++ rest)).toList =
          (Text.splitAtText "://".toList (' ' :: rest.toList)).map fun parts =>
            ((lead ++ "=" ++ value).toList ++ parts.1, parts.2) := by
      intro value hvalue
      have hchars : (lead ++ "=" ++ value ++ (" " ++ rest)).toList =
          (lead ++ "=" ++ value).toList ++ ' ' :: rest.toList := by simp
      rw [hchars, Text.splitAtText_append_cons (hmark ' ' (by simp)).1 (hfront value hvalue)]
    cases hrest : Text.splitAtText "://".toList (' ' :: rest.toList) with
    | none =>
      refine ⟨" " ++ rest, fun value hvalue => redact_of_unmarked ?_⟩
      rw [← Text.splitAtText_eq_none_iff, hsplit value hvalue, hrest]
      rfl
    | some parts =>
      cases hat : Text.splitLast '@' parts.2 with
      | none =>
        refine ⟨" " ++ rest, fun value hvalue => ?_⟩
        have hparts := hsplit value hvalue
        rw [hrest, Option.map_some] at hparts
        exact redact_of_not_mem hparts (Text.splitLast_eq_none_iff.1 hat)
      | some ends =>
        refine ⟨String.ofList (parts.1 ++ "://***@".toList ++ ends.2), fun value hvalue => ?_⟩
        have hparts := hsplit value hvalue
        rw [hrest, Option.map_some] at hparts
        rw [redact_of_split hparts hat, ← String.toList_inj]
        simp

/-- A value without marks is shown in full where no `@` stands after it. -/
theorem exists_redact_of_no_host {front back : String} (hmark : "://".toList <:+: front.toList)
    (hback : '@' ∉ back.toList) :
    ∃ lead, ∀ value, Unmarked value → redact (front ++ value ++ back) = lead ++ value ++ back := by
  cases hfront : Text.splitAtText "://".toList front.toList with
  | none => exact absurd hmark (Text.splitAtText_eq_none_iff.1 hfront)
  | some parts =>
    obtain ⟨scheme, rest⟩ := parts
    have hsplit : ∀ value, Text.splitAtText "://".toList (front ++ value ++ back).toList =
        some (scheme, rest ++ (value.toList ++ back.toList)) := by
      intro value
      simpa using Text.splitAtText_append_of_some hfront (value.toList ++ back.toList)
    have hbehind : ∀ value, Unmarked value → '@' ∉ value.toList ++ back.toList :=
      fun value hvalue hmem => (List.mem_append.1 hmem).elim hvalue.2 hback
    by_cases hrest : '@' ∈ rest
    · refine ⟨String.ofList (scheme ++ "://***@".toList ++ Text.behindLast '@' rest),
        fun value hvalue => ?_⟩
      obtain ⟨credentials, hlast⟩ := Text.splitLast_append_of_mem hrest (hbehind value hvalue)
      rw [redact_of_split (hsplit value) hlast, ← String.toList_inj]
      simp
    · refine ⟨front, fun value hvalue => redact_of_not_mem (hsplit value) fun hmem => ?_⟩
      exact (List.mem_append.1 hmem).elim hrest (hbehind value hvalue)

/-- A password is shown in full, or not at all. -/
theorem redact_password (before after : List Setting) :
    (Screened before after → ∃ shown, ∀ p : String,
      redact (text (before ++ ("password", p) :: after)) = shown) ∧
    (¬ Screened before after → ∃ lead trail : String, ∀ p, Unmarked p →
      redact (text (before ++ ("password", p) :: after)) = lead ++ p ++ trail) := by
  obtain ⟨lead, trail, hlead, htrail, htext⟩ := exists_text_eq before after
  have hurl : ∀ p, text (before ++ ("password", p) :: after) =
      lead ++ "password" ++ "=" ++ p ++ trail := by
    intro p
    simp only [htext, String.append_assoc]
  have hcolon : ':' ∉ "password".toList := by decide
  have hkey : ¬ "://".toList <:+: "password".toList := fun h => hcolon (h.subset (by simp))
  have hscheme : "://".toList <:+: (lead ++ "password").toList ↔
      "://".toList <:+: (text before).toList := by
    obtain ⟨rfl, rfl⟩ | rfl := hlead
    · simpa [text] using hkey
    · have hspace : ' ' ∉ "://".toList := by decide
      have hchars : (text before ++ " " ++ "password").toList =
          (text before).toList ++ ' ' :: "password".toList := by simp
      rw [hchars, Text.infix_append_cons_iff hspace, or_iff_left hkey]
  have hhost : '@' ∈ trail.toList ↔ '@' ∈ (text after).toList := by
    obtain ⟨rfl, rfl⟩ | rfl := htrail
    · simp [text]
    · simp
  simp only [hurl, Screened, ← hscheme, ← hhost]
  constructor
  · rintro ⟨hmark, hat⟩
    refine exists_redact_of_screened (hmark.trans ?_) hat
    simpa only [String.toList_append] using List.infix_append_left
  · intro hnot
    by_cases hmark : "://".toList <:+: (lead ++ "password").toList
    · have hfront : "://".toList <:+: (lead ++ "password" ++ "=").toList := by
        rw [String.toList_append]
        exact hmark.trans List.infix_append_left
      obtain ⟨shown, hshown⟩ := exists_redact_of_no_host hfront fun hat => hnot ⟨hmark, hat⟩
      exact ⟨shown, trail, hshown⟩
    · have hback : trail = "" ∨ ∃ rest, trail = " " ++ rest :=
        htrail.imp And.left fun h => ⟨_, h⟩
      obtain ⟨rest, hrest⟩ := exists_redact_of_no_scheme hmark hback
      exact ⟨_, rest, hrest⟩

/-- **Passwords.** A password that is screened by the settings around it is not shown, whatever
characters it holds. Any other one is told apart from all values without marks: two of them are
reported alike only if they are the same. -/
theorem Frame.password_shown_iff (f : Frame) (before after : List Setting) (path : String) :
    (Screened before after → ∀ p q : String,
      report (f.manifest (text (before ++ ("password", p) :: after))) path =
        report (f.manifest (text (before ++ ("password", q) :: after))) path) ∧
    ∀ p q : String, Unmarked p → Unmarked q →
      (report (f.manifest (text (before ++ ("password", p) :: after))) path =
          report (f.manifest (text (before ++ ("password", q) :: after))) path ↔
        p = q ∨ Screened before after) := by
  obtain ⟨hscreened, hopen⟩ := redact_password before after
  simp only [f.report_eq_iff]
  have halike : Screened before after → ∀ p q : String,
      redact (text (before ++ ("password", p) :: after)) =
        redact (text (before ++ ("password", q) :: after)) := by
    intro h p q
    obtain ⟨shown, hshown⟩ := hscreened h
    rw [hshown, hshown]
  refine ⟨halike, fun p q hp hq => ⟨fun h => ?_, ?_⟩⟩
  · by_cases hscreen : Screened before after
    · exact .inr hscreen
    · obtain ⟨lead, trail, hshown⟩ := hopen hscreen
      rw [hshown p hp, hshown q hq, String.append_left_inj, String.append_right_inj] at h
      exact .inl h
  · rintro (rfl | hscreen)
    · rfl
    · exact halike hscreen p q

example : Screened [("application_name", "a://b")] [("options", "c@d")] := by decide +kernel

set_option maxRecDepth 4000 in
/-- Two valid manifests that differ in a password only, and are not reported alike. -/
theorem password_shown_kiosk :
    Manifest.read (kioskText (text [("host", "db"), ("password", "alpha")])) "kiosk.toml" =
      .ok (kiosk.manifest (text [("host", "db"), ("password", "alpha")])) ∧
    Manifest.read (kioskText (text [("host", "db"), ("password", "omega")])) "kiosk.toml" =
      .ok (kiosk.manifest (text [("host", "db"), ("password", "omega")])) ∧
    report (kiosk.manifest (text [("host", "db"), ("password", "alpha")])) "kiosk.toml" ≠
      report (kiosk.manifest (text [("host", "db"), ("password", "omega")])) "kiosk.toml" := by
  refine ⟨Manifest.read_of_decoded (by decide +kernel) rfl _,
    Manifest.read_of_decoded (by decide +kernel) rfl _, ?_⟩
  rw [Ne, kiosk.report_eq_iff]
  decide +kernel

end Check

end Sprocket
