import Mathlib.Data.List.Sections
import Mathlib.Data.List.TakeWhile
import QualifierDiscovery.Proofs.Files.Places
import QualifierDiscovery.Proofs.Url.FilePaths
import QualifierDiscovery.Proofs.Url.Percent

/-!
# `Proofs.Url.DirectoryUrls` — a directory is read back from its URL

The URL of a directory has a segment for each name on the way to it and an empty one at the end. Reading it
leaves the text as it is (`clean_eq_self`) and cuts it into these segments again (`normalSegments_slashed`).
A segment that stands for a name is no dot segment, and none is the name of a drive as long as the first
name is not a letter and a bar (`IsDriveBar`); so the names come back, with a slash at the end
(`toPath?_directoryText`).
-/

namespace QualifierDiscovery.Url

open QualifierDiscovery.Path (IsName ofNames)

variable {name : String} {names : List String}

/-! ## Segments of names -/

/-- The characters that are a given one in lower case. -/
def capitals (d : Char) : List Char := if 97 ≤ d.toNat then [d, Char.ofNat (d.toNat - 32)] else [d]

theorem mem_capitals_toLower (c : Char) : c ∈ capitals c.toLower := by
  unfold Char.toLower
  split
  · next hupper =>
    obtain ⟨hlow, hhigh⟩ := hupper
    have hlow : 65 ≤ c.val.toNat := UInt32.le_iff_toNat_le.mp hlow
    have hhigh : c.val.toNat ≤ 90 := UInt32.le_iff_toNat_le.mp hhigh
    have hlower : (c.val + ('a'.val - 'A'.val)).toNat = c.val.toNat + 32 := by
      rw [show 'a'.val - 'A'.val = (32 : UInt32) from rfl, UInt32.toNat_add]
      have h32 : (32 : UInt32).toNat = 32 := rfl
      omega
    unfold capitals Char.toNat
    rw [hlower, if_pos (by omega), Nat.add_sub_cancel]
    refine List.mem_cons_of_mem _ (List.mem_singleton.mpr ?_)
    exact (Char.ofNat_toNat c).symm
  · unfold capitals
    split
    · exact List.mem_cons_self
    · exact List.mem_singleton_self c

/-- A text is one of the few that are the same in lower case. -/
theorem mem_sections_toLower (segment : List Char) :
    segment ∈ ((segment.map Char.toLower).map capitals).sections := by
  rw [List.mem_sections, List.map_map, List.forall₂_map_right_iff, List.forall₂_same]
  exact fun c _ => mem_capitals_toLower c

/-- Two dots stand for two dots, however they are written. -/
theorem segmentBytes_of_isDoubleDot {segment : List Char} (h : isDoubleDot segment = true) :
    segmentBytes segment = Text.utf8Bytes ".." := by
  -- only a few texts are two dots in lower case, so each of them can be decoded
  have hall : ∀ lower ∈ ["..".toList, ".%2e".toList, "%2e.".toList, "%2e%2e".toList],
      ∀ segment ∈ (lower.map capitals).sections, segmentBytes segment = Text.utf8Bytes ".." := by decide
  exact hall _ (of_decide_eq_true h) segment (mem_sections_toLower segment)

theorem segmentBytes_of_isDot {segment : List Char} (h : isDot segment = true) :
    segmentBytes segment = Text.utf8Bytes "." := by
  have hall : ∀ lower ∈ [".".toList, "%2e".toList], ∀ segment ∈ (lower.map capitals).sections,
      segmentBytes segment = Text.utf8Bytes "." := by decide
  exact hall _ (of_decide_eq_true h) segment (mem_sections_toLower segment)

/-- A segment that is neither of the dot segments. -/
structure IsPlain (segment : List Char) : Prop where
  notDoubleDot : isDoubleDot segment = false
  notDot : isDot segment = false

/-- **The segment of a name is no dot segment**, since it stands for no other text than the name. -/
theorem isPlain_encodeSegment (h : IsName name) : IsPlain (encodeSegment name) := by
  obtain ⟨-, hdot, hdots, -⟩ := h
  constructor
  · rw [Bool.eq_false_iff]
    exact fun hdouble => hdots (eq_of_segmentBytes_encodeSegment (segmentBytes_of_isDoubleDot hdouble))
  · rw [Bool.eq_false_iff]
    exact fun hsingle => hdot (eq_of_segmentBytes_encodeSegment (segmentBytes_of_isDot hsingle))

/-- A letter and a bar. At the start of a URL's path they stand for the letter and a colon. -/
def IsDriveBar (name : String) : Prop :=
  ∃ letter : Char, letter.isAlpha ∧ name = String.ofList [letter, '|']

/-- Only a letter and a bar are changed at the start of a path. -/
theorem keptSegment_encodeSegment (h : ¬ IsDriveBar name) (atStart : Bool) :
    keptSegment atStart (encodeSegment name) = encodeSegment name := by
  have hascii : ∀ c ∈ encodeSegment name, IsSegmentChar c := fun _ => isSegmentChar_of_mem_encodeSegment
  -- a segment of any other length than two is kept
  cases hsegment : encodeSegment name with
  | nil => rfl
  | cons letter rest =>
    match rest with
    | [] => rfl
    | _ :: _ :: _ => rfl
    | [mark] =>
      unfold keptSegment
      dsimp only
      split
      · next hdrive =>
        obtain ⟨-, hdrive⟩ := Bool.and_eq_true_iff.mp hdrive
        obtain ⟨hletter, hmark⟩ := Bool.and_eq_true_iff.mp hdrive
        rcases Bool.or_eq_true_iff.mp hmark with hcolon | hbar
        · rw [beq_iff_eq.mp hcolon]
        · -- the letter and the bar are written as they are, so they are the name
          obtain rfl := beq_iff_eq.mp hbar
          refine absurd ⟨letter, hletter, eq_of_segmentBytes_encodeSegment ?_⟩ h
          have hbyte := Text.utf8EncodeChar_ascii
            (Nat.lt_succ_of_lt (hascii letter (hsegment ▸ List.mem_cons_self)).ascii)
          rw [hsegment, segmentBytes, Text.utf8Bytes, String.toList_ofList, List.flatMap_cons, hbyte]
          rfl
      · rfl

/-! ## Reading -/

/-- Nothing is dropped from a text without blanks and controls. -/
theorem clean_eq_self {text : List Char} (h : ∀ c ∈ text, 0x20 < c.toNat) : clean text = text := by
  have hfront : ∀ chars : List Char, (∀ c ∈ chars, 0x20 < c.toNat) →
      chars.dropWhile (fun c => c.toNat ≤ 0x20) = chars := by
    intro chars hchars
    rw [List.dropWhile_eq_self_iff]
    intro hpos
    simpa using hchars _ (List.getElem_mem hpos)
  unfold clean
  dsimp only
  rw [hfront text h, hfront text.reverse fun c hc => h c (List.mem_reverse.mp hc), List.reverse_reverse,
    List.filter_eq_self]
  intro c hc
  have hne : ∀ d : Char, d.toNat ≤ 0x20 → c ≠ d := by
    rintro _ hd rfl
    exact absurd (h _ hc) (Nat.not_lt.mpr hd)
  simp [hne '\t' (by decide), hne '\n' (by decide), hne '\r' (by decide)]

theorem keptSegment_false (segment : List Char) : keptSegment false segment = segment := by
  unfold keptSegment
  split <;> rfl

/-- Segments that are no dot segments are kept, one behind the other. -/
theorem resolveDots_eq_append {done segments : List (List Char)}
    (hplain : ∀ segment ∈ segments, IsPlain segment)
    (hstart : done = [] → ∀ first ∈ segments.head?, keptSegment true first = first) :
    resolveDots done segments = done ++ segments := by
  induction segments generalizing done with
  | nil => exact (List.append_nil done).symm
  | cons segment rest ih =>
    obtain ⟨hdouble, hsingle⟩ := hplain segment List.mem_cons_self
    have hkept : keptSegment done.isEmpty segment = segment := by
      cases done with
      | nil => exact hstart rfl segment rfl
      | cons _ _ => exact keptSegment_false segment
    rw [resolveDots, if_neg (Bool.eq_false_iff.mp hdouble), if_neg (Bool.eq_false_iff.mp hsingle), hkept,
      ih (fun other hother => hplain other (List.mem_cons_of_mem _ hother))
        (fun hnil => absurd hnil (List.append_ne_nil_of_right_ne_nil _ (List.cons_ne_nil _ _))),
      List.append_assoc, List.singleton_append]

theorem splitOnP_flatMap_concat {segments : List (List Char)}
    (h : ∀ segment ∈ segments, ∀ c ∈ segment, isSlash c = false) :
    (segments.flatMap (· ++ ['/'])).splitOnP isSlash = segments ++ [[]] := by
  induction segments with
  | nil => rfl
  | cons segment rest ih =>
    rw [List.flatMap_cons, List.append_assoc, List.singleton_append,
      List.splitOnP_append_cons_of_forall_mem (h segment List.mem_cons_self) '/' (by decide),
      ih fun other hother => h other (List.mem_cons_of_mem _ hother), List.cons_append]

/-- A slash before each segment and one at the end are a slash at the start and one after each segment. -/
theorem slashes_around (segments : List (List Char)) :
    (segments.flatMap fun segment => '/' :: segment) ++ ['/'] = '/' :: segments.flatMap (· ++ ['/']) := by
  induction segments with
  | nil => rfl
  | cons segment rest ih =>
    simp only [List.flatMap_cons, List.append_assoc, ih, List.cons_append, List.nil_append]

theorem IsSegmentChar.isSlash_eq {c : Char} (h : IsSegmentChar c) : isSlash c = false := by
  unfold isSlash
  rw [Bool.or_eq_false_iff, beq_eq_false_iff_ne, beq_eq_false_iff_ne]
  exact h.notSlash

theorem IsSegmentChar.endsPath_eq {c : Char} (h : IsSegmentChar c) : endsPath c = false := by
  unfold endsPath
  rw [Bool.or_eq_false_iff, beq_eq_false_iff_ne, beq_eq_false_iff_ne]
  exact h.notEnd

/-- **The segments of a path in its normal form** are those it was written with, if they are no dot segments
    and the first one is kept. -/
theorem normalSegments_slashed {segments : List (List Char)}
    (hchars : ∀ segment ∈ segments, ∀ c ∈ segment, IsSegmentChar c)
    (hplain : ∀ segment ∈ segments, IsPlain segment)
    (hstart : ∀ first ∈ segments.head?, keptSegment true first = first) :
    normalSegments ((segments.flatMap fun segment => '/' :: segment) ++ ['/']) = segments ++ [[]] := by
  have hwhole : ∀ c ∈ '/' :: segments.flatMap (· ++ ['/']), (!endsPath c) = true := by
    intro c hc
    rcases List.mem_cons.mp hc with rfl | hc
    · decide
    · obtain ⟨segment, hsegment, hc⟩ := List.mem_flatMap.mp hc
      rcases List.mem_append.mp hc with hc | hc
      · rw [(hchars segment hsegment c hc).endsPath_eq]
        rfl
      · rw [List.mem_singleton.mp hc]
        rfl
  unfold normalSegments
  rw [slashes_around, List.takeWhile_eq_self_iff.mpr hwhole]
  dsimp only
  rw [if_pos (by decide),
    splitOnP_flatMap_concat fun segment hsegment c hc => (hchars segment hsegment c hc).isSlash_eq]
  apply resolveDots_eq_append
  · intro segment hsegment
    rcases List.mem_append.mp hsegment with hsegment | hsegment
    · exact hplain segment hsegment
    · rw [List.mem_singleton.mp hsegment]
      exact ⟨by decide, by decide⟩
  · intro _ first hfirst
    -- without segments, the empty one at the end is the first
    cases segments with
    | nil =>
      obtain rfl := Option.some.inj hfirst
      rfl
    | cons segment rest => exact hstart first hfirst

/-! ## Whole URLs -/

/-- A slash before the segment of each name. -/
def namesText (names : List String) : List Char := names.flatMap fun name => '/' :: encodeSegment name

/-- The text of the URL of a directory that is given by the names that lead to it. -/
def directoryText (names : List String) : List Char := "file://".toList ++ (namesText names ++ ['/'])

theorem pathText_ofNames (hne : names ≠ []) (hnames : ∀ name ∈ names, IsName name) :
    pathText (ofNames names) = namesText names := by
  have hcomponents : (Path.components (ofNames names)).filter (· != .root) = names.map .normal := by
    rw [Path.components_ofNames hne hnames, List.filter_cons_of_neg (by decide), List.filter_eq_self]
    intro component hcomponent
    obtain ⟨name, -, rfl⟩ := List.mem_map.mp hcomponent
    rfl
  obtain ⟨first, rest, rfl⟩ := List.exists_cons_of_ne_nil hne
  unfold pathText
  rw [hcomponents, List.map_cons]
  dsimp only
  rw [← List.map_cons, List.flatMap_map]
  rfl

/-- A text that ends in the segment of a name does not end in a slash. -/
theorem endsWith_namesText (hne : names ≠ []) (hnames : ∀ name ∈ names, IsName name) (front : List Char) :
    Text.endsWith "/" (String.ofList (front ++ namesText names)) = false := by
  obtain ⟨before, last, rfl⟩ := (List.eq_nil_or_concat names).resolve_left hne
  rw [List.concat_eq_append] at hnames ⊢
  have hsegment := encodeSegment_ne_nil (hnames last (List.mem_append_right _ List.mem_cons_self)).1
  rw [Bool.eq_false_iff]
  intro hends
  have hchar := Text.getLast?_of_endsWith hends (by decide)
  rw [String.toList_ofList, namesText, List.flatMap_append, List.flatMap_singleton, ← List.append_assoc,
    List.getLast?_append_of_ne_nil _ (List.cons_ne_nil _ _), ← List.singleton_append,
    List.getLast?_append_of_ne_nil _ hsegment] at hchar
  have hslash : '/' ∈ encodeSegment last := List.mem_of_getLast? hchar
  exact (isSegmentChar_of_mem_encodeSegment hslash).notSlash.1 rfl

/-- A URL that does not end in a slash gets one. -/
theorem ofDirectory?_of_ofPath? {path url : String} (h : ofPath? path = some url)
    (hopen : Text.endsWith "/" url = false) : ofDirectory? path = some (url ++ "/") := by
  unfold ofDirectory?
  rw [h, Option.map_some, if_neg (Bool.eq_false_iff.mp hopen)]

/-- What is written for a directory. -/
theorem ofDirectory?_ofNames (hne : names ≠ []) (hnames : ∀ name ∈ names, IsName name) :
    ofDirectory? (ofNames names) = some (String.ofList (directoryText names)) := by
  have habsolute := (Path.spells_ofNames hne fun name hname => (hnames name hname).isStep).isAbsolute_eq
  have hpath : ofPath? (ofNames names) = some (String.ofList ("file://".toList ++ namesText names)) := by
    unfold ofPath?
    rw [if_pos habsolute, pathText_ofNames hne hnames]
  have hopen := endsWith_namesText hne hnames "file://".toList
  have hslash : ∀ chars : List Char, String.ofList chars ++ "/" = String.ofList (chars ++ ['/']) :=
    fun _ => String.ofList_append.symm
  have hclosed := ofDirectory?_of_ofPath? hpath hopen
  rw [hslash, List.append_assoc] at hclosed
  exact hclosed

theorem lt_toNat_of_mem_directoryText {c : Char} (h : c ∈ directoryText names) : 0x20 < c.toNat := by
  unfold directoryText namesText at h
  rcases List.mem_append.mp h with hstart | h
  · have hall : ("file://".toList.all fun d => 0x20 < d.toNat) = true := by decide
    exact of_decide_eq_true (List.all_eq_true.mp hall c hstart)
  · rcases List.mem_append.mp h with h | hend
    · obtain ⟨name, -, hc⟩ := List.mem_flatMap.mp h
      rcases List.mem_cons.mp hc with rfl | hc
      · decide
      · exact (isSegmentChar_of_mem_encodeSegment hc).notBlank
    · rw [List.mem_singleton.mp hend]
      decide

/-- Without a host, the segments are those of what stands behind the third slash. -/
theorem fileSegments?_noHost (rest : List Char) :
    fileSegments? ('/' :: '/' :: '/' :: rest) = some (normalSegments ('/' :: rest)) := rfl

/-- The segments that are read from the URL of a directory. -/
theorem fileSegments?_namesText (hne : names ≠ []) (hnames : ∀ name ∈ names, IsName name)
    (hdrive : ∀ first ∈ names.head?, ¬ IsDriveBar first) :
    fileSegments? ("//".toList ++ (namesText names ++ ['/'])) = some (names.map encodeSegment ++ [[]]) := by
  have hslashed : namesText names = (names.map encodeSegment).flatMap fun segment => '/' :: segment := by
    rw [namesText, List.flatMap_map]
  have hsegments : normalSegments (namesText names ++ ['/']) = names.map encodeSegment ++ [[]] := by
    rw [hslashed]
    apply normalSegments_slashed
    · intro segment hsegment c hc
      obtain ⟨name, -, rfl⟩ := List.mem_map.mp hsegment
      exact isSegmentChar_of_mem_encodeSegment hc
    · intro segment hsegment
      obtain ⟨name, hname, rfl⟩ := List.mem_map.mp hsegment
      exact isPlain_encodeSegment (hnames name hname)
    · intro segment hsegment
      rw [List.head?_map, Option.mem_def, Option.map_eq_some_iff] at hsegment
      obtain ⟨first, hfirst, rfl⟩ := hsegment
      exact keptSegment_encodeSegment (hdrive first hfirst) true
  rw [← hsegments]
  obtain ⟨first, rest, rfl⟩ := List.exists_cons_of_ne_nil hne
  exact fileSegments?_noHost _

/-- **The path of the segments of names** has a slash before each name and one at the end. -/
theorem pathOfSegments_encodeSegment (hne : names ≠ []) (hnames : ∀ name ∈ names, IsName name) :
    pathOfSegments (names.map encodeSegment ++ [[]]) = ofNames names ++ "/" := by
  have hstart : dropEmptyStart (names.map encodeSegment ++ [[]]) = names.map encodeSegment ++ [[]] := by
    obtain ⟨first, rest, rfl⟩ := List.exists_cons_of_ne_nil hne
    have hfirst := encodeSegment_ne_nil (hnames first List.mem_cons_self).1
    obtain ⟨second, more, hmore⟩ := List.exists_cons_of_ne_nil
      (List.append_ne_nil_of_right_ne_nil (rest.map encodeSegment) (List.cons_ne_nil ([] : List Char) []))
    rw [List.map_cons, List.cons_append, hmore, dropEmptyStart, if_neg (by simpa using hfirst)]
    exact List.cons_ne_nil _ _
  have hbytes : (names.map encodeSegment ++ [[]]).flatMap
      (fun segment => 0x2F :: decode (Text.utf8Bytes (String.ofList segment))) =
      Text.utf8Bytes (ofNames names) ++ [0x2F] := by
    have hname : ∀ name, 0x2F :: decode (Text.utf8Bytes (String.ofList (encodeSegment name))) =
        ('/' :: name.toList).flatMap String.utf8EncodeChar := by
      intro name
      rw [show decode _ = Text.utf8Bytes name from segmentBytes_encodeSegment name]
      rfl
    rw [Text.utf8Bytes, ofNames, String.toList_ofList, List.flatMap_assoc, List.flatMap_append,
      List.flatMap_map]
    simp only [hname]
    rfl
  have hwhole : Text.utf8Bytes (ofNames names) ++ [0x2F] = Text.utf8Bytes (ofNames names ++ "/") := by
    rw [Text.utf8Bytes, Text.utf8Bytes, String.toList_append, List.flatMap_append]
    rfl
  have hread := Text.decodeLossy_utf8Bytes (ofNames names ++ "/")
  rw [← hwhole] at hread
  unfold pathOfSegments
  rw [hstart]
  dsimp only
  rw [hbytes, List.reverse_append]
  split
  · -- the path ends in a slash, not in the mark of a drive
    next mark letter _ _ hreverse =>
    have hmark : 0x2F = mark := (List.cons.inj hreverse).1
    rw [← hmark, if_neg (by simp), List.append_nil]
    exact hread
  · rw [List.append_nil]
    exact hread

/-- **A directory is read back from its URL**, with a slash at the end. -/
theorem toPath?_directoryText (hne : names ≠ []) (hnames : ∀ name ∈ names, IsName name)
    (hdrive : ∀ first ∈ names.head?, ¬ IsDriveBar first) :
    toPath? (String.ofList (directoryText names)) = some (ofNames names ++ "/") := by
  have hscheme : scheme? (directoryText names) =
      some ("file".toList, "//".toList ++ (namesText names ++ ['/'])) := rfl
  unfold toPath?
  rw [String.toList_ofList, clean_eq_self fun c hc => lt_toNat_of_mem_directoryText hc, hscheme]
  dsimp only
  rw [if_pos rfl, fileSegments?_namesText hne hnames hdrive, Option.map_some,
    pathOfSegments_encodeSegment hne hnames]

end QualifierDiscovery.Url
