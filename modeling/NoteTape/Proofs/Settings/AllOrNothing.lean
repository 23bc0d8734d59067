/-
  NoteTape.Proofs.Settings.AllOrNothing

  A settings file means its fields over the standard settings, all or nothing. A file
  whose entries give fields, in any order, gives the standard settings with these
  fields; a file in which one field is spoiled gives none, and the command does what it
  does without a file.
-/

import NoteTape.Command.Basic
import NoteTape.Proofs.Document.Entries
import NoteTape.Proofs.Settings.Fields
import NoteTape.Proofs.Text.Bytes

namespace NoteTape.Settings

open Document

variable {text : String} {entries : List Entry}

theorem ofBytes?_toUTF8 (text : String) : ofBytes? text.toUTF8.toList = ofText? text.toList := by
  rw [ofBytes?, Text.fromUTF8?_toUTF8]
  rfl

/-- Entries that give the fields of some choices, in any order, are the settings with
    these choices. -/
theorem load_of_gives (reads : entriesOf? text.toList = some entries) {fields : List Field}
    {choices : Choices} (gives : List.Forall₂ Gives entries fields)
    (perm : fields.Perm (fieldsOf choices)) :
    load (some text.toUTF8.toList) = .ok (choices.over standard) := by
  have nodup : (fields.map Field.key).Nodup :=
    (perm.map Field.key).nodup_iff.mpr (nodup_key_fieldsOf choices)
  have opened : ∀ field ∈ fields, field.isOpen {} = true := by
    intro field _
    cases field <;> rfl
  have settings : ofText? text.toList = some (choices.over standard) := by
    rw [ofText?, reads, Option.bind_eq_bind, Option.bind_some, foldlM_choose gives opened nodup,
      foldl_put_of_perm perm]
    rfl
  simp only [load, openFile, ofBytes?_toUTF8, settings]

/-- One spoiled entry spoils the file. -/
theorem load_of_spoils (reads : entriesOf? text.toList = some entries) {e : Entry}
    (mem : e ∈ entries) (spoils : Spoils e) :
    load (some text.toUTF8.toList) = .error invalid := by
  have settings : ofText? text.toList = none := by
    rw [ofText?, reads, Option.bind_eq_bind, Option.bind_some, foldlM_choose_of_spoils mem spoils]
    rfl
  simp only [load, openFile, ofBytes?_toUTF8, settings]

/-- Where a file gives no settings, the command does what it does without a file. -/
theorem run_of_load_error {contents : Option (List UInt8)} {e : DeviceError}
    (fails : load contents = .error e) (rounds : Nat) (arguments : List String)
    (file : String → Except DeviceError (List UInt8)) (stdin : Feed) :
    Command.run rounds arguments ⟨file, contents, stdin⟩ =
      Command.run rounds arguments ⟨file, none, stdin⟩ := by
  have same : loadOrStandard contents = loadOrStandard none := by
    rw [loadOrStandard, fails]
    rfl
  simp only [Command.run, same]

/-- A settings file means its fields over the standard settings, all or nothing. A
    mapping of scalars, however it is written, is read as its entries; and a file with
    such entries gives the standard settings with the fields that the entries give, in
    whatever order, unless one is spoiled: then it fails as invalid data, there are no
    settings of it, and the command leaves what it leaves without a file. -/
theorem settings_file_all_or_nothing :
    (∀ (text : List Char) (entries : List Entry), text.all isAllowed = true →
      Mapping (unifyBreaks text) entries → entriesOf? text = some entries) ∧
    ∀ (text : String) (entries : List Entry), entriesOf? text.toList = some entries →
      (∀ (fields : List Field) (choices : Choices), List.Forall₂ Gives entries fields →
        fields.Perm (fieldsOf choices) →
        load (some text.toUTF8.toList) = .ok (choices.over standard)) ∧
      ∀ e ∈ entries, Spoils e →
        (∃ error, load (some text.toUTF8.toList) = .error error ∧ error.kind = .invalidData) ∧
        (load (some text.toUTF8.toList)).toOption = none ∧
        loadOrStandard (some text.toUTF8.toList) = standard ∧
        ∀ (rounds : Nat) (arguments : List String)
          (file : String → Except DeviceError (List UInt8)) (stdin : Feed),
          Command.run rounds arguments ⟨file, some text.toUTF8.toList, stdin⟩ =
            Command.run rounds arguments ⟨file, none, stdin⟩ := by
  refine ⟨fun _ _ allowed written => entriesOf?_of_mapping allowed written, ?_⟩
  intro text entries reads
  refine ⟨fun _ _ gives perm => load_of_gives reads gives perm, ?_⟩
  intro e mem spoils
  have fails := load_of_spoils reads mem spoils
  refine ⟨⟨invalid, fails, rfl⟩, ?_, ?_, run_of_load_error fails⟩
  · rw [fails]
    rfl
  · rw [loadOrStandard, fails]

/-- A file with two fields, each written in another way. -/
def sadFile : String := "# sad songs\r\n  scale : 'minor' # in A\r\n\r\n  prompt: \"\\x3f \""

/-- A file with a track that is too large by one. -/
def largeFile : String := "scale: minor\ntrack: 18446744073709551616\n"

theorem mapping_sadFile : Mapping (unifyBreaks sadFile.toList)
    [(.plain "scale".toList, .quoted "minor".toList),
      (.plain "prompt".toList, .quoted "? ".toList)] := by
  have scale : EntryLine
      ("scale".toList ++ (" ".toList ++ ':' :: (" ".toList ++ "'minor'".toList)))
      (.plain "scale".toList, .quoted "minor".toList) :=
    .value ⟨.plain (by decide), by decide, by decide, by decide⟩ ⟨by decide, by decide⟩
      (@Spelled.single "minor".toList (by decide))
  have question : DoubleQuoted "\\x3f ".toList "? ".toList :=
    @DoubleQuoted.escaped "x3f".toList _ _ _ (by decide) (by decide)
      (.literal (by decide) (by decide) .none)
  have prompt : EntryLine ("prompt".toList ++ ([] ++ ':' :: (" ".toList ++ "\"\\x3f \"".toList)))
      (.plain "prompt".toList, .quoted "? ".toList) :=
    .value ⟨.plain (by decide), by decide, by decide, by decide⟩ ⟨by decide, by decide⟩
      (@Spelled.double "\\x3f ".toList "? ".toList question)
  have lead : Idle.indent.nextAll "# sad songs\n  ".toList = some .indent := by decide
  have between : Idle.behind.nextAll " # in A\n\n  ".toList = some .indent := by decide
  have column : indentation " # in A\n\n  ".toList = indentation "# sad songs\n  ".toList := by
    decide
  have lines := EntryLines.more scale between rfl (.last prompt (Idle.nextAll_nil .behind))
  refine cast (congrArg (fun text => Mapping text _) ?_) (Mapping.plain lead (column ▸ lines))
  decide +kernel

theorem mapping_largeFile : Mapping (unifyBreaks largeFile.toList)
    [(.plain "scale".toList, .plain "minor".toList),
      (.plain "track".toList, .plain "18446744073709551616".toList)] := by
  have scale : EntryLine ("scale".toList ++ ([] ++ ':' :: (" ".toList ++ "minor".toList)))
      (.plain "scale".toList, .plain "minor".toList) :=
    .value ⟨.plain (by decide), by decide, by decide, by decide⟩ ⟨by decide, by decide⟩
      (.plain (by decide))
  have track : EntryLine
      ("track".toList ++ ([] ++ ':' :: (" ".toList ++ "18446744073709551616".toList)))
      (.plain "track".toList, .plain "18446744073709551616".toList) :=
    .value ⟨.plain (by decide), by decide, by decide, by decide⟩ ⟨by decide, by decide⟩
      (.plain (by decide))
  have newLine : Idle.behind.nextAll ['\n'] = some .indent := by decide
  have lines := EntryLines.more scale newLine rfl (.last track newLine)
  refine cast (congrArg (fun text => Mapping text _) ?_)
    (Mapping.plain (Idle.nextAll_nil .indent) lines)
  decide +kernel

/-- A track of 2 ^ 64 is too large. -/
theorem spoils_largeTrack :
    Spoils (.plain "track".toList, .plain "18446744073709551616".toList) := by
  refine ⟨⟨.track 0, rfl⟩, ?_⟩
  rintro field ⟨key, s, ⟨⟩, told⟩
  have same : "track" = field.key := String.toList_inj.mp (Option.some.inj key)
  cases told with
  | scale => exact absurd same (by simp [Field.key])
  | inputMode => exact absurd same (by simp [Field.key])
  | prompt => exact absurd same (by simp [Field.key])
  | track _ number fits =>
    have large : number? "18446744073709551616".toList = none := by decide +kernel
    have read := number?_eq_some_iff.mpr ⟨number, fits⟩
    exact absurd (large.symm.trans read) (by simp)

/-- Fields are read however they are written, and a track that is too large takes the
    scale with it. -/
theorem settings_file_all_or_nothing_large_track :
    load (some sadFile.toUTF8.toList) =
      .ok { scale := .minor, track := 1, inputMode := .line, prompt := "? " } ∧
    loadOrStandard (some largeFile.toUTF8.toList) = standard := by
  have sad := settings_file_all_or_nothing.1 sadFile.toList _ (by decide +kernel) mapping_sadFile
  have large := settings_file_all_or_nothing.1 largeFile.toList _ (by decide +kernel)
    mapping_largeFile
  constructor
  · refine (settings_file_all_or_nothing.2 sadFile _ sad).1 [.scale .minor, .prompt "? "]
      { scale := some .minor, prompt := some "? " } ?_ (.refl _)
    have told := Tells.prompt { style := .quoted, text := "? ".toList }
    rw [String.ofList_toList] at told
    exact .cons ⟨rfl, _, rfl, .scale (.text (by simp))⟩ (.cons ⟨rfl, _, rfl, told⟩ .nil)
  · exact ((settings_file_all_or_nothing.2 largeFile _ large).2 _ (by simp) spoils_largeTrack).2.2.1

end NoteTape.Settings
