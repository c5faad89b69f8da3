import ClassSheet.Configuration.Basic
import ClassSheet.Proofs.Json.Reordered

/-!
# Configurations that are written in different ways

* `Format.contentSlots`, `Format.optionsSlots`, `Format.tokenSlots`, `Format.sectionsSlots`: the
  parts of the records of a configuration, with the defaults of the fields that may be left out.
* `Format.contentVariation` and the others: how the values of the fields may vary.
* `Format.sections_agree`: alike trees are read as the same sections, or none of them is read.
* `Format.sections_ne_ok`: no tree is read with a name in one of the records that is no text.
* `Configuration.SameOutcome`: two texts have the same configuration, or both have none.
* `Configuration.ofJson_alike`: so it is for alike texts.
* `Configuration.not_sameOutcome_halfNamed`: but not if a name is no text in only one of them.
-/

namespace ClassSheet

open Json (Agree Slot Tree Variation readChoice_agree readListItems_agree readList_agree
  readOptionalNumber_agree readText_agree)
open Json.Tree (Reordered)
open Number (Binary64)

namespace Format

variable {tree tree' : Tree} {depth : Nat}

/-! ## The content section -/

/-- The parts of a content section. -/
def contentSlots : List (Slot ContentDraft) := [
  { name := "sourceDir".toList
    Value := Path
    read := readPath
    get := ContentDraft.sourceDir?
    put := fun d x => { d with sourceDir? := some x } },
  { name := "fileExtension".toList
    Value := Text
    read := readText
    get := ContentDraft.fileExtension?
    put := fun d x => { d with fileExtension? := some x } },
  { name := "outputFile".toList
    Value := Path
    read := readPath
    get := ContentDraft.outputFile?
    put := fun d x => { d with outputFile? := some x } },
  { name := "includeDirs".toList
    Value := List Path
    read := Json.readList readPath
    get := ContentDraft.includeDirs?
    put := fun d x => { d with includeDirs? := some x }
    default? := some [] }]

theorem content_slotted : content.Slotted contentSlots where
  holds := by
    repeat' constructor
    all_goals
      intros
      rfl
  apart := by
    simp only [contentSlots, List.pairwise_cons, List.forall_mem_cons, List.not_mem_nil,
      false_implies, implies_true, and_true, List.Pairwise.nil]
    and_intros
    all_goals exact ⟨by decide, fun _ _ => rfl, fun _ _ => rfl⟩
  empty := by
    simp only [contentSlots, List.forall_mem_cons, List.not_mem_nil, false_implies, implies_true,
      and_true]
    and_intros <;> rfl
  finish := by
    intro d d' h
    simp only [contentSlots, List.forall_mem_cons] at h
    obtain ⟨hsource, hextension, houtput, hinclude, -⟩ := h
    have hsource : d.sourceDir? = d'.sourceDir? := Slot.get_eq_of_content rfl hsource
    have hextension : d.fileExtension? = d'.fileExtension? :=
      Slot.get_eq_of_content rfl hextension
    have houtput : d.outputFile? = d'.outputFile? := Slot.get_eq_of_content rfl houtput
    have hinclude : d.includeDirs?.getD [] = d'.includeDirs?.getD [] :=
      Slot.getD_eq_of_content rfl hinclude
    show d.finish? = d'.finish?
    rw [ContentDraft.finish?, ContentDraft.finish?, hsource, hextension, houtput, hinclude]

/-- The order of members may vary everywhere, and a list of no directories may be left out. -/
def contentVariation : Variation where
  fields := [("sourceDir".toList, []), ("fileExtension".toList, []), ("outputFile".toList, []),
    ("includeDirs".toList, [])]
  same _ := Reordered
  atDefault field tree := field = "includeDirs".toList ∧ tree = .list (.ofList [])

theorem readPath_agree (h : Reordered tree tree') : Agree (readPath tree) (readPath tree') :=
  (readText_agree .path h).map Path.ofText

theorem content_agree (hskip : Json.skip tree = .ok ()) (hskip' : Json.skip tree' = .ok ())
    (h : contentVariation.Alike tree tree') :
    Agree (content.read tree) (content.read tree') := by
  refine content_slotted.read_agree rfl ?_ ?_ hskip hskip' h
  · simp only [contentSlots, List.forall_mem_cons, List.not_mem_nil, false_implies, implies_true,
      and_true]
    refine ⟨?_, ?_, ?_, ?_⟩
    · exact fun _ _ _ _ h => readPath_agree h
    · exact fun _ _ _ _ h => readText_agree .text h
    · exact fun _ _ _ _ h => readPath_agree h
    · exact fun _ _ _ _ h => readList_agree readPath_agree h
  · simp only [contentSlots, List.forall_mem_cons, List.not_mem_nil, false_implies, implies_true,
      and_true]
    refine ⟨?_, ?_, ?_, ?_⟩
    · exact fun _ _ h => absurd h.1 (by decide)
    · exact fun _ _ h => absurd h.1 (by decide)
    · exact fun _ _ h => absurd h.1 (by decide)
    · rintro _ - ⟨-, rfl⟩
      exact ⟨[], rfl, rfl⟩

/-! ## The options -/

/-- The parts of the options. -/
def optionsSlots : List (Slot OptionsDraft) := [
  { name := "unit".toList
    Value := Text
    read := readText
    get := OptionsDraft.unit?
    put := fun d x => { d with unit? := some x }
    default? := some "rem".toList },
  { name := "matching".toList
    Value := Policy
    read := Json.readChoice policies
    get := OptionsDraft.policy?
    put := fun d x => { d with policy? := some x }
    default? := some .exact }]

theorem options_slotted : options.Slotted optionsSlots where
  holds := by
    repeat' constructor
    all_goals
      intros
      rfl
  apart := by
    simp only [optionsSlots, List.pairwise_cons, List.forall_mem_cons, List.not_mem_nil,
      false_implies, implies_true, and_true, List.Pairwise.nil]
    exact ⟨by decide, fun _ _ => rfl, fun _ _ => rfl⟩
  empty := by
    simp only [optionsSlots, List.forall_mem_cons, List.not_mem_nil, false_implies, implies_true,
      and_true]
    and_intros <;> rfl
  finish := by
    intro d d' h
    simp only [optionsSlots, List.forall_mem_cons] at h
    obtain ⟨hunit, hpolicy, -⟩ := h
    have hunit : d.unit?.getD defaultUnit = d'.unit?.getD defaultUnit :=
      Slot.getD_eq_of_content rfl hunit
    have hpolicy : d.policy?.getD .exact = d'.policy?.getD .exact :=
      Slot.getD_eq_of_content rfl hpolicy
    show some d.finish = some d'.finish
    rw [OptionsDraft.finish, OptionsDraft.finish, hunit, hpolicy]

/-- The unit `rem` and the policy `exact`, in both of its forms, may be left out. -/
def optionsVariation : Variation where
  fields := [("unit".toList, []), ("matching".toList, [])]
  same _ := Reordered
  atDefault field tree :=
    (field = "unit".toList ∧ tree = .text (some "rem".toList)) ∨
    (field = "matching".toList ∧ (tree = .text (some "exact".toList) ∨
      tree = .object (.ofList [(some "exact".toList, .null)])))

theorem options_agree (hskip : Json.skip tree = .ok ()) (hskip' : Json.skip tree' = .ok ())
    (h : optionsVariation.Alike tree tree') :
    Agree (options.read tree) (options.read tree') := by
  refine options_slotted.read_agree rfl ?_ ?_ hskip hskip' h
  · simp only [optionsSlots, List.forall_mem_cons, List.not_mem_nil, false_implies, implies_true,
      and_true]
    refine ⟨?_, ?_⟩
    · exact fun _ _ _ _ h => readText_agree .text h
    · exact fun _ _ _ _ h => readChoice_agree policies h
  · simp only [optionsSlots, List.forall_mem_cons, List.not_mem_nil, false_implies, implies_true,
      and_true]
    refine ⟨?_, ?_⟩
    · rintro _ - (⟨-, rfl⟩ | ⟨hname, -⟩)
      · exact ⟨_, rfl, rfl⟩
      · exact absurd hname (by decide)
    · rintro _ - (⟨hname, -⟩ | ⟨-, rfl | rfl⟩)
      · exact absurd hname (by decide)
      · exact ⟨_, rfl, rfl⟩
      · exact ⟨_, rfl, rfl⟩

/-! ## Tokens -/

/-- The part of a bound. -/
def boundSlot (name : Text) (get : TokenDraft → Option (Option Binary64))
    (put : TokenDraft → Option Binary64 → TokenDraft) : Slot TokenDraft where
  name := name
  Value := Option Binary64
  read := Json.readOptionalNumber
  get := get
  put := put
  default? := some none

/-- The parts of a token. -/
def tokenSlots (depth : Nat) : List (Slot TokenDraft) := [
  { name := "name".toList
    Value := Text
    read := readText
    get := TokenDraft.name?
    put := fun d x => { d with name? := some x } },
  { name := "property".toList
    Value := Text
    read := readText
    get := TokenDraft.property?
    put := fun d x => { d with property? := some x } },
  { name := "type".toList
    aliases := ["kind".toList]
    Value := TokenKind
    read := Json.readChoice kinds
    get := TokenDraft.kind?
    put := fun d x => { d with kind? := some x } },
  { name := "val".toList
    aliases := ["value".toList]
    Value := TokenValue
    read := readValue (depth + 1)
    get := TokenDraft.value?
    put := fun d x => { d with value? := some x } },
  { name := "direction".toList
    aliases := ["directions".toList]
    Value := List Text
    read := Json.readList readText
    get := TokenDraft.directions?
    put := fun d x => { d with directions? := some x }
    default? := some [] },
  boundSlot "min".toList TokenDraft.min? fun d x => { d with min? := some x },
  boundSlot "max".toList TokenDraft.max? fun d x => { d with max? := some x },
  boundSlot "step".toList TokenDraft.step? fun d x => { d with step? := some x }]

theorem token_slotted (depth : Nat) : (token depth).Slotted (tokenSlots depth) where
  holds := by
    repeat' constructor
    all_goals
      intros
      rfl
  apart := by
    simp only [tokenSlots, List.pairwise_cons, List.forall_mem_cons, List.not_mem_nil,
      false_implies, implies_true, and_true, List.Pairwise.nil]
    and_intros
    all_goals exact ⟨by simp [Json.Slot.names, boundSlot], fun _ _ => rfl, fun _ _ => rfl⟩
  empty := by
    simp only [tokenSlots, List.forall_mem_cons, List.not_mem_nil, false_implies, implies_true,
      and_true]
    and_intros <;> rfl
  finish := by
    intro d d' h
    simp only [tokenSlots, List.forall_mem_cons] at h
    obtain ⟨hname, hproperty, hkind, hvalue, hdirections, hmin, hmax, hstep, -⟩ := h
    have hname : d.name? = d'.name? := Slot.get_eq_of_content rfl hname
    have hproperty : d.property? = d'.property? := Slot.get_eq_of_content rfl hproperty
    have hkind : d.kind? = d'.kind? := Slot.get_eq_of_content rfl hkind
    have hvalue : d.value? = d'.value? := Slot.get_eq_of_content rfl hvalue
    have hdirections : d.directions?.getD [] = d'.directions?.getD [] :=
      Slot.getD_eq_of_content rfl hdirections
    have hmin : d.min?.getD none = d'.min?.getD none := Slot.getD_eq_of_content rfl hmin
    have hmax : d.max?.getD none = d'.max?.getD none := Slot.getD_eq_of_content rfl hmax
    have hstep : d.step?.getD none = d'.step?.getD none := Slot.getD_eq_of_content rfl hstep
    show d.finish? = d'.finish?
    rw [TokenDraft.finish?, TokenDraft.finish?, hname, hproperty, hkind, hvalue, hdirections, hmin,
      hmax, hstep]

/-- No list and no object is a value. -/
theorem readValue_ne_ok (hnumber : ∀ n?, tree ≠ .number n?) (htext : ∀ s?, tree ≠ .text s?)
    (value : TokenValue) : readValue depth tree ≠ .ok value := by
  intro h
  obtain ⟨-, -, h⟩ := bind_eq_ok_iff.mp h
  cases tree with
  | number n? => exact hnumber n? rfl
  | text s? => exact htext s? rfl
  | _ => cases h

theorem readValue_agree (h : Reordered tree tree') :
    Agree (readValue depth tree) (readValue depth tree') := by
  cases h with
  | refl => exact .refl _
  | list _ => exact .of_error (readValue_ne_ok nofun nofun) (readValue_ne_ok nofun nofun)
  | object _ _ => exact .of_error (readValue_ne_ok nofun nofun) (readValue_ne_ok nofun nofun)

/-- A list of no suffixes may be left out, and so may the bounds where they are nothing. -/
def tokenVariation : Variation where
  fields := [("name".toList, []), ("property".toList, []), ("type".toList, ["kind".toList]),
    ("val".toList, ["value".toList]), ("direction".toList, ["directions".toList]),
    ("min".toList, []), ("max".toList, []), ("step".toList, [])]
  same _ := Reordered
  atDefault field tree :=
    (field = "direction".toList ∧ tree = .list (.ofList [])) ∨
    (field ∈ ["min".toList, "max".toList, "step".toList] ∧ tree = .null)

theorem token_agree (hskip : Json.skip tree = .ok ()) (hskip' : Json.skip tree' = .ok ())
    (h : tokenVariation.Alike tree tree') :
    Agree ((token depth).read tree) ((token depth).read tree') := by
  refine (token_slotted depth).read_agree rfl ?_ ?_ hskip hskip' h
  · simp only [tokenSlots, List.forall_mem_cons, List.not_mem_nil, false_implies, implies_true,
      and_true]
    refine ⟨?_, ?_, ?_, ?_, ?_, ?_, ?_, ?_⟩
    · exact fun _ _ _ _ h => readText_agree .text h
    · exact fun _ _ _ _ h => readText_agree .text h
    · exact fun _ _ _ _ h => readChoice_agree kinds h
    · exact fun _ _ _ _ h => readValue_agree h
    · exact fun _ _ _ _ h => readList_agree (readText_agree .text) h
    all_goals exact fun _ _ _ _ h => readOptionalNumber_agree h
  · have hrequired {field : Text} (hdirection : field ≠ "direction".toList)
        (hbound : field ∉ ["min".toList, "max".toList, "step".toList]) (tree : Tree) :
        ¬tokenVariation.atDefault field tree := by
      rintro (⟨hname, -⟩ | ⟨hname, -⟩)
      · exact hdirection hname
      · exact hbound hname
    simp only [tokenSlots, List.forall_mem_cons, List.not_mem_nil, false_implies, implies_true,
      and_true]
    refine ⟨?_, ?_, ?_, ?_, ?_, ?_, ?_, ?_⟩
    · exact fun tree _ h => absurd h (hrequired (by decide) (by decide) tree)
    · exact fun tree _ h => absurd h (hrequired (by decide) (by decide) tree)
    · exact fun tree _ h => absurd h (hrequired (by decide) (by decide) tree)
    · exact fun tree _ h => absurd h (hrequired (by decide) (by decide) tree)
    · rintro _ - (⟨-, rfl⟩ | ⟨hname, -⟩)
      · exact ⟨[], rfl, rfl⟩
      · exact absurd hname (by decide)
    all_goals
      rintro _ - (⟨hname, -⟩ | ⟨-, rfl⟩)
      · exact absurd hname (by decide)
      · exact ⟨none, rfl, rfl⟩

/-! ## All sections -/

/-- The trees are lists of alike tokens, one after the other, or no lists at all. -/
inductive TokensAlike : Tree → Tree → Prop where
  | list {items items' : List Tree}
    (h : List.Forall₂ tokenVariation.Alike items items') :
    TokensAlike (.list (.ofList items)) (.list (.ofList items'))
  | other {tree tree' : Tree} (hlist : ∀ items, tree ≠ .list items) (h : Reordered tree tree') :
    TokensAlike tree tree'

theorem readTokens_agree (hskip : Json.skip tree = .ok ()) (hskip' : Json.skip tree' = .ok ())
    (h : TokensAlike tree tree') : Agree (readTokens depth tree) (readTokens depth tree') := by
  cases h with
  | @list items items' h =>
    replace hskip := Json.forall_skip_of_list hskip
    replace hskip' := Json.forall_skip_of_list hskip'
    refine readListItems_agree ?_
    induction h with
    | nil => exact .nil
    | cons hitem _ ih =>
      obtain ⟨hfirst, hrest⟩ := List.forall_mem_cons.mp hskip
      obtain ⟨hfirst', hrest'⟩ := List.forall_mem_cons.mp hskip'
      exact .cons (token_agree hfirst hfirst' hitem) (ih hrest hrest')
  | other hlist h =>
    cases h with
    | refl => exact .refl _
    | list _ => exact absurd rfl (hlist _)
    | object _ _ => exact .of_error (fun _ h => by cases h) fun _ h => by cases h

/-- The parts of a configuration. -/
def sectionsSlots : List (Slot SectionsDraft) := [
  { name := "content".toList
    Value := Content
    read := content.read
    get := SectionsDraft.content?
    put := fun d x => { d with content? := some x } },
  { name := "settings".toList
    Value := Options
    read := options.read
    get := SectionsDraft.options?
    put := fun d x => { d with options? := some x }
    default? := some {} },
  { name := "props".toList
    Value := List DesignToken
    read := readTokens 1
    get := SectionsDraft.tokens?
    put := fun d x => { d with tokens? := some x } }]

theorem sections_slotted : sections.Slotted sectionsSlots where
  holds := by
    repeat' constructor
    all_goals
      intros
      rfl
  apart := by
    simp only [sectionsSlots, List.pairwise_cons, List.forall_mem_cons, List.not_mem_nil,
      false_implies, implies_true, and_true, List.Pairwise.nil]
    and_intros
    all_goals exact ⟨by decide, fun _ _ => rfl, fun _ _ => rfl⟩
  empty := by
    simp only [sectionsSlots, List.forall_mem_cons, List.not_mem_nil, false_implies, implies_true,
      and_true]
    and_intros <;> rfl
  finish := by
    intro d d' h
    simp only [sectionsSlots, List.forall_mem_cons] at h
    obtain ⟨hcontent, hoptions, htokens, -⟩ := h
    have hcontent : d.content? = d'.content? := Slot.get_eq_of_content rfl hcontent
    have hoptions : d.options?.getD {} = d'.options?.getD {} := Slot.getD_eq_of_content rfl hoptions
    have htokens : d.tokens? = d'.tokens? := Slot.get_eq_of_content rfl htokens
    show d.finish? = d'.finish?
    rw [SectionsDraft.finish?, SectionsDraft.finish?, hcontent, hoptions, htokens]

/-- Each section may vary as its record does, and options that are all at their defaults may be left
out. -/
def sectionsVariation : Variation where
  fields := [("content".toList, []), ("settings".toList, []), ("props".toList, [])]
  same field tree tree' :=
    (field = "content".toList ∧ contentVariation.Alike tree tree') ∨
    (field = "settings".toList ∧ optionsVariation.Alike tree tree') ∨
    (field = "props".toList ∧ TokensAlike tree tree')
  atDefault field tree :=
    field = "settings".toList ∧ optionsVariation.Alike tree (.object (.ofList []))

theorem sections_agree (hskip : Json.skip tree = .ok ()) (hskip' : Json.skip tree' = .ok ())
    (h : sectionsVariation.Alike tree tree') :
    Agree (sections.read tree) (sections.read tree') := by
  refine sections_slotted.read_agree rfl ?_ ?_ hskip hskip' h
  · simp only [sectionsSlots, List.forall_mem_cons, List.not_mem_nil, false_implies, implies_true,
      and_true]
    refine ⟨?_, ?_, ?_⟩
    · rintro _ _ hskip hskip' (⟨-, h⟩ | ⟨hname, -⟩ | ⟨hname, -⟩)
      · exact content_agree hskip hskip' h
      · exact absurd hname (by decide)
      · exact absurd hname (by decide)
    · rintro _ _ hskip hskip' (⟨hname, -⟩ | ⟨-, h⟩ | ⟨hname, -⟩)
      · exact absurd hname (by decide)
      · exact options_agree hskip hskip' h
      · exact absurd hname (by decide)
    · rintro _ _ hskip hskip' (⟨hname, -⟩ | ⟨hname, -⟩ | ⟨-, h⟩)
      · exact absurd hname (by decide)
      · exact absurd hname (by decide)
      · exact readTokens_agree hskip hskip' h
  · simp only [sectionsSlots, List.forall_mem_cons, List.not_mem_nil, false_implies, implies_true,
      and_true]
    refine ⟨?_, ?_, ?_⟩
    · exact fun _ _ h => absurd h.1 (by decide)
    · rintro _ hskip ⟨-, h⟩
      exact ⟨{}, rfl, (options_agree hskip rfl h _).mpr rfl⟩
    · exact fun _ _ h => absurd h.1 (by decide)

/-- A member of one of the records has a name that is no text. -/
inductive HasHalfName : Tree → Prop where
  | sections {tree : Tree} (h : Json.HalfNamed tree) : HasHalfName tree
  | content {members : List (Option Text × Tree)} {value : Tree}
    (hvalue : value ∈ Json.given ["content".toList] members) (h : Json.HalfNamed value) :
    HasHalfName (.object (.ofList members))
  | settings {members : List (Option Text × Tree)} {value : Tree}
    (hvalue : value ∈ Json.given ["settings".toList] members) (h : Json.HalfNamed value) :
    HasHalfName (.object (.ofList members))
  | token {members : List (Option Text × Tree)} {items : List Tree} {item : Tree}
    (hvalue : .list (.ofList items) ∈ Json.given ["props".toList] members) (hitem : item ∈ items)
    (h : Json.HalfNamed item) : HasHalfName (.object (.ofList members))

/-- Such a name is refused, in whichever of the records it is. -/
theorem sections_ne_ok (h : HasHalfName tree) (x : Sections) : sections.read tree ≠ .ok x := by
  intro hread
  cases h with
  | sections h => exact sections.read_ne_ok_of_halfNamed h x hread
  | content hvalue h =>
    obtain ⟨c, hc⟩ := sections_slotted.exists_read_of_mem_given hread (.head _) hvalue
    exact content.read_ne_ok_of_halfNamed h c hc
  | settings hvalue h =>
    obtain ⟨o, ho⟩ := sections_slotted.exists_read_of_mem_given hread (.tail _ (.head _)) hvalue
    exact options.read_ne_ok_of_halfNamed h o ho
  | token hvalue hitem h =>
    obtain ⟨ds, hds⟩ := sections_slotted.exists_read_of_mem_given hread
      (.tail _ (.tail _ (.head _))) hvalue
    obtain ⟨d, hd⟩ := Json.exists_read_of_readListItems hds _ hitem
    exact (token 2).read_ne_ok_of_halfNamed h d hd

end Format

namespace Configuration

/-- Two texts have the same configuration, or the same thing is wrong with their tokens, or both cannot
be read. -/
inductive SameOutcome (path : Path) : Except ConfigurationError Configuration →
    Except ConfigurationError Configuration → Prop where
  | configured (c : Configuration) : SameOutcome path (.ok c) (.ok c)
  | invalid (cause : ThemeError) :
    SameOutcome path (.error (.invalid cause)) (.error (.invalid cause))
  | unparsable (cause cause' : Json.Fault) :
    SameOutcome path (.error (.unparsable path cause)) (.error (.unparsable path cause'))

/-! Two spellings of one configuration, a brief one and a wordy one. -/

section Spellings

open Json (Blanks ItemSpellings MemberSpellings NameSpelling NumberSpelling Spelling Symbol)

def noBlanks : Blanks := ⟨[], by simp⟩

def oneBlank : Blanks := ⟨[' '], by decide⟩

/-- The characters of a text that can stand for themselves. -/
def plainSymbols (s : Text) : List Symbol :=
  s.filterMap fun c => if h : Json.isPlain c = true then some (.plain c h) else none

/-- A name of such characters. -/
def plainName (s : String) : NameSpelling := ⟨noBlanks, plainSymbols s.toList, noBlanks⟩

/-- A text of such characters. -/
def plainText (s : String) : Spelling := .text (plainSymbols s.toList)

/-- A name that is half of a surrogate pair. -/
def halfName : NameSpelling := ⟨noBlanks, [.code 'd' '8' '0' '0' 0xd800 rfl], noBlanks⟩

def numeralOne : Spelling :=
  .number ⟨false, ⟨['1'], by simp, by decide⟩, by simp, none, none⟩

/-- The members of an object without blanks. -/
def compact (first : NameSpelling × Spelling) : List (NameSpelling × Spelling) → MemberSpellings
  | [] => .last first.1 noBlanks first.2 noBlanks
  | next :: rest => .more first.1 noBlanks first.2 noBlanks (compact next rest)

def briefMembers : MemberSpellings :=
  compact
    (plainName "content", .object (compact
      (plainName "sourceDir", plainText "src") [
      (plainName "fileExtension", plainText "tsx"),
      (plainName "outputFile", plainText "o.css")])) [
    (plainName "props", .list (.last noBlanks (.object (compact
      (plainName "name", plainText "gap") [
      (plainName "type", plainText "range"),
      (plainName "property", plainText "gap"),
      (plainName "val", numeralOne)])) noBlanks))]

def brief : Json.DocumentSpelling where
  before := noBlanks
  value := .object briefMembers
  behind := noBlanks

/-- The same in another order, under other names and with defaults that are written out. -/
def wordy : Json.DocumentSpelling where
  before := oneBlank
  value := .object (compact
    (plainName "note", .object (compact (halfName, .emptyObject oneBlank) [])) [
    (plainName "props", .list (.last oneBlank (.object (compact
      (plainName "value", numeralOne) [
      (plainName "directions", .emptyList noBlanks),
      (plainName "kind", plainText "range"),
      (plainName "property",
        .text [.code '0' '0' '6' '7' 0x67 rfl, .plain 'a' rfl, .plain 'p' rfl]),
      (plainName "name", plainText "gap"),
      (plainName "min", .null)])) oneBlank)),
    (plainName "settings", .object (compact
      (plainName "unit", plainText "rem") [])),
    (plainName "content", .object (compact
      (plainName "outputFile", plainText "o.css") [
      (plainName "includeDirs", .emptyList noBlanks),
      (plainName "fileExtension", plainText "tsx"),
      (plainName "sourceDir", plainText "src")]))])
  behind := noBlanks

/-- The brief spelling with one more member, the name of which is half of a surrogate pair. -/
def halfNamed : Json.DocumentSpelling where
  before := noBlanks
  value := .object (.more halfName noBlanks .null noBlanks briefMembers)
  behind := noBlanks

theorem content_alike (a b c : Tree) :
    Format.contentVariation.Alike
      (.object (.ofList [(some "sourceDir".toList, a), (some "fileExtension".toList, b),
        (some "outputFile".toList, c)]))
      (.object (.ofList [(some "outputFile".toList, c),
        (some "includeDirs".toList, .list (.ofList [])), (some "fileExtension".toList, b),
        (some "sourceDir".toList, a)])) := by
  refine .of_named (by simp [Json.Named]) (by simp [Json.Named]) ?_
  simp only [Format.contentVariation, List.forall_mem_cons, List.not_mem_nil, false_implies,
    implies_true, and_true]
  refine ⟨?_, ?_, ?_, ?_⟩
  · show Json.Matched _ _ [a] [a]
    exact .both (.refl _)
  · show Json.Matched _ _ [b] [b]
    exact .both (.refl _)
  · show Json.Matched _ _ [c] [c]
    exact .both (.refl _)
  · show Json.Matched _ _ [] [.list (.ofList [])]
    exact .right ⟨trivial, rfl⟩

theorem token_alike (a b c d : Tree) :
    Format.tokenVariation.Alike
      (.object (.ofList [(some "name".toList, a), (some "type".toList, b), (some "property".toList, c),
        (some "val".toList, d)]))
      (.object (.ofList [(some "value".toList, d), (some "directions".toList, .list (.ofList [])),
        (some "kind".toList, b), (some "property".toList, c), (some "name".toList, a),
        (some "min".toList, .null)])) := by
  refine .of_named (by simp [Json.Named]) (by simp [Json.Named]) ?_
  simp only [Format.tokenVariation, List.forall_mem_cons, List.not_mem_nil, false_implies,
    implies_true, and_true]
  refine ⟨?_, ?_, ?_, ?_, ?_, ?_, ?_, ?_⟩
  · show Json.Matched _ _ [a] [a]
    exact .both (.refl _)
  · show Json.Matched _ _ [c] [c]
    exact .both (.refl _)
  · show Json.Matched _ _ [b] [b]
    exact .both (.refl _)
  · show Json.Matched _ _ [d] [d]
    exact .both (.refl _)
  · show Json.Matched _ _ [] [.list (.ofList [])]
    exact .right (.inl ⟨trivial, rfl⟩)
  · show Json.Matched _ _ [] [.null]
    exact .right (.inr ⟨by decide, rfl⟩)
  · exact .neither
  · exact .neither

theorem options_alike :
    Format.optionsVariation.Alike
      (.object (.ofList [(some "unit".toList, .text (some "rem".toList))]))
      (.object (.ofList [])) := by
  refine .of_named (by simp [Json.Named]) (by simp [Json.Named]) ?_
  simp only [Format.optionsVariation, List.forall_mem_cons, List.not_mem_nil, false_implies,
    implies_true, and_true]
  refine ⟨?_, ?_⟩
  · show Json.Matched _ _ [.text (some "rem".toList)] []
    exact .left (.inl ⟨trivial, rfl⟩)
  · exact .neither

theorem brief_alike_wordy :
    Format.sectionsVariation.Alike brief.value.tree wordy.value.tree := by
  refine .of_named (by decide) (by decide) ?_
  simp only [Format.sectionsVariation, List.forall_mem_cons, List.not_mem_nil, false_implies,
    implies_true, and_true]
  refine ⟨?_, ?_, ?_⟩
  · exact .both (.inl ⟨trivial, content_alike _ _ _⟩)
  · exact .right ⟨trivial, options_alike⟩
  · exact .both (.inr (.inr ⟨trivial, .list (.cons (token_alike _ _ _ _) .nil)⟩))

end Spellings

/-- Two JSON texts have the same outcome if, apart from their blanks and the order of members, they
give the same for each field: under whatever names, with whatever other members beside, and with a
field left out in the one where the other one has the default. In none of the records is a field
given twice. Half of a surrogate pair may stand alone in any string and in the names below the other
members; where it does in the name of a member of a record, the other text has such a name too. -/
theorem ofJson_alike (x y : Json.DocumentSpelling)
    (h : Format.sectionsVariation.Alike x.value.tree y.value.tree ∨
      Format.HasHalfName x.value.tree ∧ Format.HasHalfName y.value.tree) (path : Path) :
    SameOutcome path (ofJson path x.toText) (ofJson path y.toText) := by
  have hagree : Json.Agree (Format.sections.read x.value.tree) (Format.sections.read y.value.tree) :=
    h.elim (Format.sections_agree x.value.skip_tree y.value.skip_tree) fun ⟨hx, hy⟩ =>
      .of_error (Format.sections_ne_ok hx) (Format.sections_ne_ok hy)
  rw [ofJson, ofJson, x.readDocument_toText, y.readDocument_toText]
  cases hx : Format.sections.read x.value.tree with
  | ok sections =>
    rw [(hagree sections).mp hx]
    dsimp only
    cases Theme.ofTokens sections.tokens with
    | ok theme => exact .configured _
    | error cause => exact .invalid cause
  | error cause =>
    cases hy : Format.sections.read y.value.tree with
    | ok sections =>
      rw [(hagree sections).mpr hy] at hx
      cases hx
    | error cause' => exact .unparsable cause cause'

theorem ofJson_alike_brief_wordy :
    brief.toText = [
      "\x7b\"content\":\x7b\"sourceDir\":\"src\",\"fileExtension\":\"tsx\",",
      "\"outputFile\":\"o.css\"\x7d,",
      "\"props\":[\x7b\"name\":\"gap\",\"type\":\"range\",\"property\":\"gap\",",
      "\"val\":1\x7d]\x7d"].flatMap String.toList ∧
    wordy.toText = [
      " \x7b\"note\":\x7b\"\\ud800\":\x7b \x7d\x7d,",
      "\"props\":[ \x7b\"value\":1,\"directions\":[],\"kind\":\"range\",",
      "\"property\":\"\\u0067ap\",\"name\":\"gap\",\"min\":null\x7d ],",
      "\"settings\":\x7b\"unit\":\"rem\"\x7d,",
      "\"content\":\x7b\"outputFile\":\"o.css\",\"includeDirs\":[],",
      "\"fileExtension\":\"tsx\",\"sourceDir\":\"src\"\x7d\x7d"].flatMap String.toList ∧
    Format.sectionsVariation.Alike brief.value.tree wordy.value.tree ∧
    ∃ c, ofJson ⟨"tokens.json".toList⟩ brief.toText = .ok c ∧
      ofJson ⟨"tokens.json".toList⟩ wordy.toText = .ok c := by
  refine ⟨by decide +kernel, by decide +kernel, brief_alike_wordy, ?_⟩
  have hok : (ofJson ⟨"tokens.json".toList⟩ brief.toText).toOption.isSome = true := by
    decide +kernel
  have h := ofJson_alike brief wordy (.inl brief_alike_wordy) ⟨"tokens.json".toList⟩
  generalize ofJson ⟨"tokens.json".toList⟩ brief.toText = x at h hok ⊢
  generalize ofJson ⟨"tokens.json".toList⟩ wordy.toText = y at h ⊢
  cases h with
  | configured c => exact ⟨c, rfl, rfl⟩
  | invalid _ => cases hok
  | unparsable _ _ => cases hok

/-- A member beside the fields matters if half of a surrogate pair stands alone in its name. -/
theorem not_sameOutcome_halfNamed :
    brief.toText = '\x7b' :: (briefMembers.toText ++ ['\x7d']) ∧
    halfNamed.toText = "\x7b\"\\ud800\":null,".toList ++ (briefMembers.toText ++ ['\x7d']) ∧
    (∃ c, ofJson ⟨"tokens.json".toList⟩ brief.toText = .ok c) ∧
    (∃ cause, ofJson ⟨"tokens.json".toList⟩ halfNamed.toText =
      .error (.unparsable ⟨"tokens.json".toList⟩ cause)) ∧
    ¬SameOutcome ⟨"tokens.json".toList⟩ (ofJson ⟨"tokens.json".toList⟩ brief.toText)
      (ofJson ⟨"tokens.json".toList⟩ halfNamed.toText) := by
  have hok : (ofJson ⟨"tokens.json".toList⟩ brief.toText).toOption.isSome = true := by
    decide +kernel
  have hrefused : Format.sections.read halfNamed.value.tree = .error (.problem .malformed) := rfl
  have herror : ofJson ⟨"tokens.json".toList⟩ halfNamed.toText =
      .error (.unparsable ⟨"tokens.json".toList⟩ (.problem .malformed)) := by
    rw [ofJson, halfNamed.readDocument_toText, hrefused]
  generalize ofJson ⟨"tokens.json".toList⟩ brief.toText = outcome at hok
  refine ⟨rfl, by decide +kernel, ?_, ⟨_, herror⟩, ?_⟩
  · cases outcome with
    | ok c => exact ⟨c, rfl⟩
    | error cause => cases hok
  · rw [herror]
    intro h
    cases h with | unparsable cause _ => cases hok

end Configuration

end ClassSheet
