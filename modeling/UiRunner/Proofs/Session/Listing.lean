import UiRunner.Proofs.Text.Lines
import UiRunner.Session.Adb

/-!
# Reading what adb lists

What adb prints about devices, and that the devices are read from it: a banner, then a line for each
device, with lines between them that say nothing about devices. Whatever precedes the banner does
not count, and without a banner there are no devices.
-/
namespace UiRunner.Session

/-- The word that adb prints for a state. -/
def DeviceState.word : DeviceState → String
  | .device => "device"
  | .unauthorized => "unauthorized"
  | .offline => "offline"
  | .other word => word

theorem DeviceState.word_ofWord (word : String) : (ofWord word).word = word := by
  unfold ofWord
  split_ifs with device unauthorized offline
  · exact device.symm
  · exact unauthorized.symm
  · exact offline.symm
  · rfl

/-- No word but this one is read as the state of an authorized device. -/
theorem isAuthorized_ofWord (serial word : String) :
    (⟨serial, .ofWord word⟩ : Attached).isAuthorized = (word == "device") := by
  unfold Attached.isAuthorized DeviceState.ofWord
  split_ifs <;> simp_all

namespace Adb

variable {d : String × String} {devices : List (String × String)} {line found : List Char}
  {before lines founds : List (List Char)}

/-! ## What adb prints -/

/-- A serial and a state: words, of which the first one does not begin with a star. -/
structure IsPair (d : String × String) : Prop where
  serial : Text.IsWord d.1.toList
  state : Text.IsWord d.2.toList
  noStar : d.1.toList.head? ≠ some '*'

/-- A line that says nothing about a device. -/
def IsAside (line : List Char) : Prop :=
  (∀ c ∈ line, Text.isBlank c = true) ∨ line.head? = some '*'

/-- The line of a device: serial and state with blanks between them, and perhaps more behind a
blank. -/
def IsRow (d : String × String) (line : List Char) : Prop :=
  ∃ gap more, gap ≠ [] ∧ (∀ c ∈ gap, Text.isBlank c = true) ∧
    (∀ c, more.head? = some c → Text.isBlank c = true) ∧
    line = d.1.toList ++ (gap ++ (d.2.toList ++ more))

/-- Lines that list these devices. -/
inductive Rows : List (String × String) → List (List Char) → Prop where
  | nil : Rows [] []
  | aside {devices : List (String × String)} {line : List Char} {lines : List (List Char)} :
      IsAside line → Rows devices lines → Rows devices (line :: lines)
  | device {d : String × String} {devices : List (String × String)} {line : List Char}
      {lines : List (List Char)} : IsPair d → IsRow d line → Rows devices lines →
      Rows (d :: devices) (line :: lines)

/-- A text that lists these devices behind the first line that begins with the banner. -/
def IsListing (devices : List (String × String)) (output : String) : Prop :=
  ∃ before line rows, (∀ l ∈ before, ¬ banner <+: l) ∧ banner <+: line ∧ Rows devices rows ∧
    Text.Written (before ++ line :: rows) output.toList

/-! ## What is read from a line -/

theorem ofLine?_of_isAside (h : IsAside line) : ofLine? line = none := by
  rw [ofLine?, if_pos]
  simpa [IsAside] using h

theorem ofLine?_of_isRow (pair : IsPair d) (row : IsRow d line) :
    ofLine? line = some ⟨d.1, .ofWord d.2⟩ := by
  obtain ⟨gap, more, some_, blank, ends, rfl⟩ := row
  have parted : ∀ c, (gap ++ (d.2.toList ++ more)).head? = some c → Text.isBlank c = true := by
    intro c first
    rw [List.head?_append_of_ne_nil _ some_] at first
    exact blank c (List.mem_of_head? first)
  have words : Text.wordsChars (d.1.toList ++ (gap ++ (d.2.toList ++ more))) =
      d.1.toList :: d.2.toList :: Text.wordsChars more := by
    rw [pair.serial.wordsChars_append parted, Text.wordsChars_append_of_blank blank,
      pair.state.wordsChars_append ends]
  have spoken : ¬ ((d.1.toList ++ (gap ++ (d.2.toList ++ more))).all Text.isBlank ||
      (d.1.toList ++ (gap ++ (d.2.toList ++ more))).head? == some '*') := by
    obtain ⟨c, rest, chars⟩ := List.exists_cons_of_ne_nil pair.serial.some_
    have visible := pair.serial.visible c (by simp [chars])
    have noStar := pair.noStar
    rw [chars] at noStar ⊢
    simpa [visible] using noStar
  rw [ofLine?, if_neg spoken, words]
  simp

/-- A return at the end of a line is a blank behind everything that counts. -/
theorem ofLine?_of_isFound (h : Text.IsFound line found) : ofLine? found = ofLine? line := by
  obtain rfl | rfl := h
  · rfl
  have blank : Text.isBlank '\r' = true := by decide
  have words : Text.wordsChars (found ++ ['\r']) = Text.wordsChars found := by
    rw [Text.wordsChars_append_cons blank, Text.wordsChars_nil, List.append_nil]
  cases found with
  | nil => rfl
  | cons c rest =>
    simp only [ofLine?, words]
    simp [blank]

theorem banner_prefix_iff (h : Text.IsFound line found) : banner <+: found ↔ banner <+: line := by
  obtain rfl | rfl := h
  · rfl
  rw [List.prefix_concat_iff]
  have last : banner ≠ found ++ ['\r'] := by
    intro same
    have noReturn : banner.getLast? ≠ some '\r' := by decide
    exact noReturn (by simp [same])
  simp [last]

/-! ## What is read from lines -/

/-- The devices listed by lines. -/
def ofLines (lines : List (List Char)) : List Attached :=
  ((lines.dropWhile fun l => !banner.isPrefixOf l).drop 1).filterMap ofLine?

theorem isPrefixOf_banner_iff : banner.isPrefixOf line = true ↔ banner <+: line :=
  List.isPrefixOf_iff_prefix

theorem ofLines_cons (noBanner : ¬ banner <+: line) (lines : List (List Char)) :
    ofLines (line :: lines) = ofLines lines := by
  have skipped : banner.isPrefixOf line = false := by
    rwa [← Bool.not_eq_true, isPrefixOf_banner_iff]
  simp [ofLines, skipped]

theorem ofLines_append (noBanner : ∀ l ∈ before, ¬ banner <+: l) (lines : List (List Char)) :
    ofLines (before ++ lines) = ofLines lines := by
  induction before with
  | nil => rfl
  | cons line before ih =>
    rw [List.forall_mem_cons] at noBanner
    rw [List.cons_append, ofLines_cons noBanner.1, ih noBanner.2]

theorem ofLines_banner (isBanner : banner <+: line) (rows : List (List Char)) :
    ofLines (line :: rows) = rows.filterMap ofLine? := by
  simp [ofLines, isPrefixOf_banner_iff.2 isBanner]

theorem filterMap_of_rows (h : Rows devices lines) :
    lines.filterMap ofLine? = devices.map fun d => ⟨d.1, .ofWord d.2⟩ := by
  induction h with
  | nil => rfl
  | aside said _ ih => rw [List.filterMap_cons_none (ofLine?_of_isAside said), ih]
  | device pair row _ ih =>
    rw [List.filterMap_cons_some (ofLine?_of_isRow pair row), ih, List.map_cons]

theorem filterMap_of_isFound (h : List.Forall₂ Text.IsFound lines founds) :
    founds.filterMap ofLine? = lines.filterMap ofLine? := by
  induction h with
  | nil => rfl
  | cons same _ ih => rw [List.filterMap_cons, List.filterMap_cons, ofLine?_of_isFound same, ih]

theorem ofLines_of_isFound (h : List.Forall₂ Text.IsFound lines founds) :
    ofLines founds = ofLines lines := by
  induction h with
  | nil => rfl
  | @cons line found lines founds same rest ih =>
    by_cases isBanner : banner <+: line
    · rw [ofLines_banner isBanner, ofLines_banner ((banner_prefix_iff same).2 isBanner),
        filterMap_of_isFound rest]
    · rw [ofLines_cons isBanner, ofLines_cons ((banner_prefix_iff same).not.2 isBanner), ih]

theorem parseDevices_of_written {output : String} (written : Text.Written lines output.toList) :
    parseDevices output = ofLines lines :=
  ofLines_of_isFound written.isFound

/-- **What adb lists is read back exactly.** Whatever stands before the banner, between the devices
and behind their states, however lines end: the devices are read in order, with their serials and
states, and those whose state is `device` count as authorized. A text in which no line begins with
the banner lists no devices. -/
theorem parseDevices_exact (output : String) :
    (∀ devices, IsListing devices output →
      parseDevices output = (devices.map fun d => ⟨d.1, .ofWord d.2⟩) ∧
      (parseDevices output).map (fun a => (a.serial, a.state.word)) = devices ∧
      (parseDevices output).map (·.isAuthorized) = devices.map (·.2 == "device")) ∧
    ((∀ before after, output.toList = before ++ banner ++ after →
        before ≠ [] ∧ before.getLast? ≠ some '\n') →
      parseDevices output = []) := by
  constructor
  · rintro devices ⟨before, line, rows, noBanner, isBanner, listed, written⟩
    have read : parseDevices output = devices.map fun d => ⟨d.1, .ofWord d.2⟩ := by
      rw [parseDevices_of_written written, ofLines_append noBanner, ofLines_banner isBanner,
        filterMap_of_rows listed]
    refine ⟨read, ?_, ?_⟩
    · simp [read, DeviceState.word_ofWord, Function.comp_def]
    · simp [read, isAuthorized_ofWord, Function.comp_def]
  · intro noBanner
    obtain ⟨lines, written⟩ := Text.exists_written output.toList
    rw [parseDevices_of_written written, ← List.append_nil lines, ofLines_append]
    · rfl
    · rintro line mem ⟨rest, rfl⟩
      obtain ⟨before, after, text, begins⟩ := written.exists_append mem
      have none := noBanner before (rest ++ after) (by simp [text])
      exact begins.elim none.1 none.2

/-- A daemon that talks before the banner and behind it, returns at the end of some lines, more
columns, and a last line that does not end. -/
def chatter : String :=
  "* daemon not running\r\nList of devices attached\r\n" ++
    "R58 \t device usb:1\n* daemon\n\nR59\toffline"

theorem isListing_chatter : IsListing [("R58", "device"), ("R59", "offline")] chatter := by
  refine ⟨["* daemon not running".toList], "List of devices attached".toList,
    ["R58 \t device usb:1".toList, "* daemon".toList, [], "R59\toffline".toList],
    by decide +kernel, by decide +kernel, ?_, ?_⟩
  · have first : IsPair ("R58", "device") :=
      ⟨by decide +kernel, by decide +kernel, by decide +kernel⟩
    have second : IsPair ("R59", "offline") :=
      ⟨by decide +kernel, by decide +kernel, by decide +kernel⟩
    have columns : IsRow ("R58", "device") "R58 \t device usb:1".toList := by
      have blank : ∀ c ∈ " \t ".toList, Text.isBlank c = true :=
        List.all_eq_true.1 (by decide +kernel)
      refine ⟨" \t ".toList, " usb:1".toList, by decide, blank, ?_, by decide +kernel⟩
      rintro c ⟨⟩
      decide
    have plain : IsRow ("R59", "offline") "R59\toffline".toList :=
      ⟨['\t'], [], by simp, by simp [Text.isBlank], by simp, by decide +kernel⟩
    exact .device first columns (.aside (.inr (by decide +kernel)) (.aside (.inl (by simp))
      (.device second plain .nil)))
  · have text : chatter.toList = "* daemon not running".toList ++ ['\r', '\n'] ++
        ("List of devices attached".toList ++ ['\r', '\n'] ++ ("R58 \t device usb:1".toList ++
          ['\n'] ++ ("* daemon".toList ++ ['\n'] ++ ([] ++ ['\n'] ++ "R59\toffline".toList)))) := by
      decide +kernel
    rw [text]
    exact .ended (by decide) (by decide) (.ended (by decide) (by decide) (.ended (by decide)
      (by decide) (.ended (by decide) (by decide) (.ended (by decide) (by decide)
        (.last (by decide) (by decide))))))

theorem parseDevices_exact_chatter : parseDevices chatter =
    [⟨"R58", .device⟩, ⟨"R59", .offline⟩] ∧ parseDevices "* daemon" = [] := by
  obtain ⟨read, -, -⟩ := (parseDevices_exact chatter).1 _ isListing_chatter
  refine ⟨read.trans (by decide +kernel), ?_⟩
  apply (parseDevices_exact "* daemon").2
  intro before after text
  -- The banner is longer than the text.
  have longer := congrArg List.length text
  have size : "* daemon".toList.length = 8 ∧ banner.length = 15 := by decide
  rw [List.length_append, List.length_append, size.1, size.2] at longer
  omega

end Adb

end UiRunner.Session
