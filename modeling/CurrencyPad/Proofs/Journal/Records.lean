import CurrencyPad.Journal.Basic
import CurrencyPad.Proofs.Journal.Tail
import CurrencyPad.Proofs.Json.RoundTrip

/-!
# Reading a journal back

Every event is one line of plain characters, so the bytes of a file are taken
apart at the same places where they were put together.  Whatever the events hold,
the records of a file are the last events that were written to it.
-/

namespace CurrencyPad

namespace LogEvent

def fields (event : LogEvent) : List (Text × Json) :=
  [ ("schema_version".toList, .integer event.schemaVersion),
    ("ts".toList, .string event.timestamp),
    ("level".toList, .literal event.level.name),
    ("event_type".toList, .literal event.topic.name),
    ("context".toList, .object event.context),
    ("message".toList, .string event.message),
    ("error_code".toList, Json.optionalText event.errorCode) ]

theorem toJson_eq (event : LogEvent) : event.toJson = .object event.fields :=
  rfl

/-- In the record of an event no name occurs twice if none does in its context. -/
theorem hasDistinctNames_toJson {event : LogEvent}
    (distinct : (Json.object event.context).HasDistinctNames) :
    event.toJson.HasDistinctNames := by
  have code : (Json.optionalText event.errorCode).HasDistinctNames := by
    cases event.errorCode with
    | none =>
        exact .null
    | some text =>
        exact .string text
  have names : Table.names event.fields =
      ["schema_version".toList, "ts".toList, "level".toList,
        "event_type".toList, "context".toList, "message".toList,
        "error_code".toList] := rfl
  rw [toJson_eq]
  refine .object (names ▸ by decide) ?_
  simp only [fields, List.forall_mem_cons]
  exact ⟨.integer _, .string _, .string _, .string _, distinct, .string _,
    code, nofun⟩

end LogEvent

namespace Journal

variable {event : LogEvent}

theorem ascii_lineOf (legible : event.toJson.Legible) :
    ∀ c ∈ lineOf event, c.toNat < 0x80 := by
  rw [lineOf, List.forall_mem_append, List.forall_mem_singleton]
  refine ⟨fun c member => ?_, by decide⟩
  exact Nat.lt_of_le_of_lt
    (Text.toNat_of_isPlain (legible.plain 0 c member)).2 (by decide)

/-- The bytes of an event end with their only line feed. -/
theorem isLine_lineOf (legible : event.toJson.Legible) :
    Records.IsLine (Text.toBytes (lineOf event)) := by
  refine ⟨event.toJson.toLine.map Char.toUInt8, ?_, ?_⟩
  · rw [Text.toBytes_ascii (ascii_lineOf legible), lineOf, List.map_append]
    rfl
  · intro member
    obtain ⟨c, inside, isFeed⟩ := List.mem_map.mp member
    have bounds := Text.toNat_of_isPlain (legible.plain 0 c inside)
    have code := congrArg UInt8.toNat isFeed
    have same : c.toUInt8.toNat = c.toNat :=
      Nat.mod_eq_of_lt (Nat.lt_of_le_of_lt bounds.2 (by decide))
    rw [same] at code
    have ten : Records.lineFeed.toNat = 10 := rfl
    omega

/-- The line of an event is read as its record with the fields in order. -/
theorem ofLine_toLine (legible : event.toJson.Legible) :
    Records.ofLine event.toJson.toLine = .ok (some event.toJson.ordered) := by
  have stripped : Text.strip event.toJson.toLine = event.toJson.toLine :=
    Json.strip_toLine event.fields
  rw [Records.ofLine, stripped, legible.ofText_toLine]

private theorem filterMapM_ofLine {events : List LogEvent}
    (legible : ∀ event ∈ events, event.toJson.Legible) :
    (events.map (·.toJson.toLine)).filterMapM Records.ofLine =
      .ok (events.map (·.toJson.ordered)) := by
  induction events with
  | nil =>
      rfl
  | cons first others inductionHypothesis =>
      rw [List.forall_mem_cons] at legible
      rw [List.map_cons, List.filterMapM_cons, ofLine_toLine legible.1]
      change ((others.map _).filterMapM Records.ofLine).bind _ = _
      rw [inductionHypothesis legible.2]
      rfl

/-- The bytes of some events are read as the records of these events. -/
theorem ofText_lines {events : List LogEvent}
    (legible : ∀ event ∈ events, event.toJson.Legible) :
    Records.ofText (Text.ofBytes
        (events.map fun event => Text.toBytes (lineOf event)).flatten) =
      .ok (events.map (·.toJson.ordered)) := by
  have bytes : (events.map fun event => Text.toBytes (lineOf event)).flatten =
      Text.toBytes (events.flatMap lineOf) := by
    rw [Text.toBytes, List.flatMap_assoc, List.flatMap]
    rfl
  have ascii : ∀ c ∈ events.flatMap lineOf, c.toNat < 0x80 := by
    intro c member
    obtain ⟨event, inside, isChar⟩ := List.mem_flatMap.mp member
    exact ascii_lineOf (legible event inside) c isChar
  have rows : events.flatMap lineOf =
      (events.map (·.toJson.toLine)).flatMap (· ++ ['\n']) := by
    rw [List.flatMap_map]
    rfl
  have plain : ∀ row ∈ events.map (·.toJson.toLine),
      ∀ c ∈ row, Text.isPlain c = true :=
    List.forall_mem_map.mpr fun event member =>
      (legible event member).plain 0
  rw [bytes, Text.ofBytes_toBytes ascii, Records.ofText, rows,
    Text.lines_flatMap plain, filterMapM_ofLine legible]

theorem contentOf_append (journal : Journal) (path other : Text)
    (content : Bytes) :
    (journal.append path content).contentOf other =
      if path = other then journal.contentOf other ++ content
      else journal.contentOf other := by
  rw [append, contentOf]
  dsimp only
  rw [Table.get?_insert]
  split
  case isTrue same =>
    rw [same]
    rfl
  · rfl

theorem mainFile_ne_sessionFile (name : Text) : mainFile ≠ sessionFile name :=
  fun same => absurd (List.cons.inj same).1 (by decide)

theorem isStorable_mainFile : Path.isStorable mainFile = true := by
  decide +kernel

theorem filesFor_cases (session : Option Text) :
    filesFor session = [mainFile] ∨
      ∃ name, filesFor session = [mainFile, sessionFile name] := by
  cases session with
  | none =>
      exact .inl rfl
  | some name =>
      unfold filesFor
      dsimp only
      split
      · exact .inr ⟨name, rfl⟩
      · exact .inl rfl

theorem mainFile_mem_filesFor (session : Option Text) :
    mainFile ∈ filesFor session := by
  rcases filesFor_cases session with files | ⟨name, files⟩
  · rw [files]
    exact List.mem_cons_self
  · rw [files]
    exact List.mem_cons_self

/-- Among different files of which the last at most cannot be stored, every file
that can be stored gets the bytes once. -/
theorem contentOf_appendAll {paths : List Text} (distinct : paths.Nodup)
    (others : ∀ other ∈ paths.dropLast, Path.isStorable other = true)
    (journal : Journal) (content : Bytes) {path : Text}
    (storable : Path.isStorable path = true) :
    (appendAll content journal paths).2.contentOf path =
      journal.contentOf path ++ if path ∈ paths then content else [] := by
  induction paths generalizing journal with
  | nil =>
      exact (List.append_nil _).symm
  | cons first rest inductionHypothesis =>
      rw [List.nodup_cons] at distinct
      cases stored : Path.isStorable first with
      | true =>
          have later : ∀ other ∈ rest.dropLast,
              Path.isStorable other = true := by
            intro other member
            cases rest with
            | nil =>
                cases member
            | cons second more =>
                exact others other (List.mem_cons_of_mem _ member)
          rw [appendAll, if_pos stored, inductionHypothesis distinct.2 later,
            contentOf_append]
          by_cases same : first = path
          · subst same
            simp [distinct.1]
          · simp [same, Ne.symm same]
      | false =>
          have isLast : rest = [] := by
            cases rest with
            | nil =>
                rfl
            | cons second more =>
                have noFault := others first List.mem_cons_self
                rw [stored] at noFault
                cases noFault
          have different : path ≠ first := by
            rintro rfl
            rw [storable] at stored
            cases stored
          simp [appendAll, stored, isLast, different]

/-- A file that can be stored gets the line of an event that can be written, if
it is one of the files for the session. -/
theorem contentOf_write (journal : Journal) (event : LogEvent)
    (session : Option Text) {path : Text}
    (storable : Path.isStorable path = true) :
    (journal.write event session).2.contentOf path =
      journal.contentOf path ++
        if event.toJson.isPrintable = true ∧ path ∈ filesFor session then
          Text.toBytes (lineOf event) else [] := by
  unfold write
  cases printable : event.toJson.isPrintable with
  | false =>
      simp
  | true =>
      rw [if_pos rfl]
      simp only [true_and]
      refine contentOf_appendAll ?_ ?_ journal _ storable
      · rcases filesFor_cases session with files | ⟨name, files⟩
        · rw [files]
          exact List.nodup_singleton mainFile
        · rw [files]
          simp [mainFile_ne_sessionFile name]
      · rcases filesFor_cases session with files | ⟨name, files⟩
        · rw [files]
          exact nofun
        · rw [files]
          exact List.forall_mem_singleton.mpr isStorable_mainFile

theorem exists_files_appendAll (content : Bytes) (journal : Journal)
    (paths : List Text) :
    ∃ files, (appendAll content journal paths).2 = { journal with files } := by
  induction paths generalizing journal with
  | nil =>
      exact ⟨journal.files, rfl⟩
  | cons path rest inductionHypothesis =>
      rw [appendAll]
      split
      · obtain ⟨files, same⟩ :=
          inductionHypothesis (journal.append path content)
        exact ⟨files, same⟩
      · exact ⟨journal.files, rfl⟩

/-- Writing changes nothing of a journal but its files. -/
theorem exists_files_write (journal : Journal) (event : LogEvent)
    (session : Option Text) :
    ∃ files, (journal.write event session).2 = { journal with files } := by
  unfold write
  split
  · exact exists_files_appendAll _ journal _
  · exact ⟨journal.files, rfl⟩

def bytesOf (event : LogEvent) : Nat :=
  (Text.toBytes (lineOf event)).length

/-- An event together with the session in which it is written. -/
abbrev Entry := LogEvent × Option Text

def writeAll (journal : Journal) (entries : List Entry) : Journal :=
  entries.foldl (fun journal entry => (journal.write entry.1 entry.2).2) journal

/-- The events that are written to a file.  An event that is not printable is
written nowhere. -/
def eventsFor (path : Text) (entries : List Entry) : List LogEvent :=
  (entries.filter fun entry =>
    entry.1.toJson.isPrintable && (filesFor entry.2).contains path).map (·.1)

/-- Every event that can be printed is written to the file for all events. -/
theorem eventsFor_mainFile (entries : List Entry) :
    eventsFor mainFile entries =
      (entries.filter (·.1.toJson.isPrintable)).map (·.1) := by
  unfold eventsFor
  congr 1
  refine List.filter_congr fun entry _ => ?_
  rw [List.contains_iff_mem.mpr (mainFile_mem_filesFor entry.2), Bool.and_true]

theorem legible_of_mem_eventsFor {path : Text} {entries : List Entry}
    (distinct : ∀ entry ∈ entries,
      (Json.object entry.1.context).HasDistinctNames)
    {event : LogEvent} (member : event ∈ eventsFor path entries) :
    event.toJson.Legible := by
  obtain ⟨entry, written, rfl⟩ := List.mem_map.mp member
  rw [List.mem_filter, Bool.and_eq_true] at written
  exact (LogEvent.hasDistinctNames_toJson
    (distinct entry written.1)).legible written.2.1

theorem contentOf_writeAll (journal : Journal) (entries : List Entry)
    {path : Text} (storable : Path.isStorable path = true) :
    (journal.writeAll entries).contentOf path =
      journal.contentOf path ++
        ((eventsFor path entries).map fun event =>
          Text.toBytes (lineOf event)).flatten := by
  induction entries generalizing journal with
  | nil =>
      exact (List.append_nil _).symm
  | cons entry rest inductionHypothesis =>
      have next := inductionHypothesis (journal.write entry.1 entry.2).2
      rw [contentOf_write journal entry.1 entry.2 storable] at next
      rw [writeAll, List.foldl_cons, ← writeAll, next, eventsFor, eventsFor,
        List.filter_cons]
      simp only [Bool.and_eq_true, List.contains_iff_mem]
      split <;> simp

theorem readLimit_writeAll (journal : Journal) (entries : List Entry) :
    (journal.writeAll entries).readLimit = journal.readLimit := by
  induction entries generalizing journal with
  | nil =>
      rfl
  | cons entry rest inductionHypothesis =>
      obtain ⟨files, same⟩ := exists_files_write journal entry.1 entry.2
      rw [writeAll, List.foldl_cons, ← writeAll, inductionHypothesis, same]

/-- A missing file is read like an empty one. -/
theorem recordsOf_eq {journal : Journal} (natural : 0 ≤ journal.readLimit)
    {path : Text} (storable : Path.isStorable path = true) :
    journal.recordsOf path =
      Records.ofText (Text.ofBytes
        (Records.tail journal.readLimit.toNat (journal.contentOf path))) := by
  have allowed : ¬ journal.readLimit < 0 := Int.not_lt.mpr natural
  rw [recordsOf, storable, contentOf]
  cases journal.files.get? path with
  | some content =>
      exact if_neg allowed
  | none =>
      rfl

/-- A file holds the bytes of all events that were written to it and nothing
else. -/
theorem length_contentOf_writeAll (readLimit : Int) (entries : List Entry)
    {path : Text} (storable : Path.isStorable path = true) :
    (((empty readLimit).writeAll entries).contentOf path).length =
      ((eventsFor path entries).map bytesOf).sum := by
  rw [contentOf_writeAll (empty readLimit) entries storable]
  change List.length (List.flatten _) = _
  rw [List.length_flatten, List.map_map]
  rfl

/-- What is read of a file is the end of the lines that were written to it. -/
theorem recordsOf_writeAll_eq {readLimit : Int} (natural : 0 ≤ readLimit)
    {path : Text} (storable : Path.isStorable path = true)
    (entries : List Entry) :
    ((empty readLimit).writeAll entries).recordsOf path =
      Records.ofText (Text.ofBytes (Records.tail readLimit.toNat
        ((eventsFor path entries).map fun event =>
          Text.toBytes (lineOf event)).flatten)) := by
  have content := contentOf_writeAll (empty readLimit) entries storable
  have limit : ((empty readLimit).writeAll entries).readLimit = readLimit :=
    readLimit_writeAll (empty readLimit) entries
  rw [recordsOf_eq (by rw [limit]; exact natural) storable, limit, content]
  rfl

/-- The records of a file are those of the events whose lines begin behind the
limit, in the order in which they were written. -/
theorem exists_keepsBehind {readLimit : Int} (natural : 0 ≤ readLimit)
    {path : Text} (storable : Path.isStorable path = true)
    {entries : List Entry}
    (distinct : ∀ entry ∈ entries,
      (Json.object entry.1.context).HasDistinctNames) :
    ∃ skipped kept,
      Records.KeepsBehind readLimit.toNat bytesOf (eventsFor path entries) skipped
        kept ∧
      ((empty readLimit).writeAll entries).recordsOf path =
        .ok (kept.map (·.toJson.ordered)) := by
  have legible : ∀ event ∈ eventsFor path entries, event.toJson.Legible :=
    fun event => legible_of_mem_eventsFor distinct
  obtain ⟨_, _, keepsLines, isTail⟩ := Records.exists_tail_flatten
    (List.forall_mem_map.mpr fun event member =>
      isLine_lineOf (legible event member)) readLimit.toNat
  obtain ⟨skipped, kept, keeps, rfl⟩ := keepsLines.exists_of_map
  refine ⟨skipped, kept, keeps, ?_⟩
  rw [recordsOf_writeAll_eq natural storable, isTail]
  exact ofText_lines fun event member =>
    legible event (keeps.parts ▸ List.mem_append_right skipped member)

/-- The records of a file are those of the last events that were written to it,
as far as the limit goes, in the order in which they were written. The file
holds the bytes of all these events and nothing else, and the file for all
events those of every event that can be printed. -/
theorem recordsOf_writeAll {readLimit : Int} (natural : 0 ≤ readLimit)
    {path : Text} (storable : Path.isStorable path = true)
    {entries : List Entry}
    (proper : ∀ entry ∈ entries, (Json.object entry.1.context).IsProper) :
    let journal := (empty readLimit).writeAll entries
    let events := eventsFor path entries
    eventsFor mainFile entries =
        (entries.filter (·.1.toJson.isPrintable)).map (·.1) ∧
      (journal.contentOf path).length = (events.map bytesOf).sum ∧
      ∃ skipped kept,
        Records.KeepsLast readLimit.toNat bytesOf events skipped kept ∧
        journal.recordsOf path = .ok (kept.map (·.toJson.ordered)) := by
  intro journal events
  obtain ⟨skipped, kept, keeps, isRead⟩ :=
    exists_keepsBehind natural storable fun entry member =>
      (proper entry member).hasDistinctNames
  exact ⟨eventsFor_mainFile entries,
    length_contentOf_writeAll readLimit entries storable, skipped, kept,
    keeps.keepsLast, isRead⟩

/-- An event whose texts hold the ends of lines, quotes and a character above
U+FFFF. -/
def brokenEvent : LogEvent where
  schemaVersion := 1
  timestamp := "2024-02-29T23:59:59.000000Z".toList
  level := .warning
  topic := .expressionError
  context :=
    [ ("quote \"".toList, .string ['\n', '\x85', Char.ofNat 0x2028, '\x1b']),
      ("list".toList, .array [.real 0.1, .integer (-3), .object []]) ]
  message := ['a', '\r', '\n', Char.ofNat 0x1D11E]
  errorCode := none

theorem isProper_brokenEvent : (Json.object brokenEvent.context).IsProper := by
  have finite : Float.isFinite 0.1 = true := by decide +kernel
  refine .object (by decide) ?_
  simp only [brokenEvent, List.forall_mem_cons]
  refine ⟨.string _, .array ?_, List.forall_mem_nil _⟩
  simp only [List.forall_mem_cons]
  exact ⟨.real finite, .integer _, .object List.nodup_nil (List.forall_mem_nil _),
    List.forall_mem_nil _⟩

theorem isPrintable_brokenEvent : brokenEvent.toJson.isPrintable = true := by
  decide +kernel

theorem recordsOf_writeAll_broken :
    let entries : List Entry :=
      [(brokenEvent, none), (brokenEvent, some "night-1".toList)]
    let journal := (empty 400).writeAll entries
    let events := eventsFor mainFile entries
    (0 : Int) ≤ 400 ∧ Path.isStorable mainFile = true ∧
      (∀ entry ∈ entries, (Json.object entry.1.context).IsProper) ∧
      events = [brokenEvent, brokenEvent] ∧
      (journal.contentOf mainFile).length = (events.map bytesOf).sum ∧
      ∃ skipped kept,
        Records.KeepsLast (400 : Int).toNat bytesOf events skipped kept ∧
        journal.recordsOf mainFile = .ok (kept.map (·.toJson.ordered)) := by
  intro entries journal events
  have natural : (0 : Int) ≤ 400 := by decide
  have proper : ∀ entry ∈ entries,
      (Json.object entry.1.context).IsProper := by
    simp only [entries, List.forall_mem_cons]
    exact ⟨isProper_brokenEvent, isProper_brokenEvent, List.forall_mem_nil _⟩
  obtain ⟨all, told⟩ := recordsOf_writeAll natural isStorable_mainFile proper
  have written : events = [brokenEvent, brokenEvent] :=
    all.trans (by simp [entries, isPrintable_brokenEvent])
  exact ⟨natural, isStorable_mainFile, proper, written, told⟩

end Journal

end CurrencyPad
