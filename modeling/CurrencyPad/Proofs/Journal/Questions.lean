import CurrencyPad.Proofs.Journal.Sessions
import CurrencyPad.Proofs.Text.Lines

/-!
# Questions to any file

The file for all events may hold anything. Lines that are not JSON are passed
over, but JSON is taken for an event whatever it is. So a question is answered
just where every field that it asks for can be looked up, and then it is
answered in full.
-/

namespace CurrencyPad

namespace Json

def textOf? (record : Json) (name : String) : Option Text :=
  match record.field? name with
  | some (.string text) => some text
  | _ => none

def sessionOf? (record : Json) : Option Text :=
  (record.field? "context").bind (·.textOf? "session_id")

def IsObject (value : Json) : Prop :=
  ∃ fields, value.fields? = some fields

end Json

namespace Records

/-- A record in which all fields of an event can be looked up. -/
structure IsEvent (record : Json) : Prop where
  object : record.IsObject
  context : ∀ context ∈ record.field? "context", context.IsObject

/-- The value of a row of a file, if it is JSON. -/
def valueOf? (row : Text) : Option Json :=
  (Json.ofText (Text.strip row)).toOption

/-- A row with a whole number that has too many digits. -/
def IsOverlong (row : Text) : Prop :=
  ∃ count, Json.ofText (Text.strip row) = .error (.tooManyDigits count)

/-- A row that is not JSON or that looks like an event. -/
structure IsSound (row : Text) : Prop where
  fits : ¬ IsOverlong row
  event : ∀ record ∈ valueOf? row, IsEvent record

theorem ofLine_eq_ok_iff {row : Text} {found : Option Json} :
    ofLine row = .ok found ↔ ¬ IsOverlong row ∧ found = valueOf? row := by
  unfold ofLine IsOverlong valueOf?
  cases Json.ofText (Text.strip row) with
  | ok record =>
      simp [Except.toOption, eq_comm]
  | error fault =>
      cases fault <;> simp [Except.toOption, eq_comm]

private theorem bind_eq_ok_iff {α β : Type} {first : Except Fault α}
    {next : α → Except Fault β} {result : β} :
    first >>= next = .ok result ↔
      ∃ between, first = .ok between ∧ next between = .ok result := by
  cases first with
  | error fault =>
      exact iff_of_false nofun nofun
  | ok between =>
      constructor
      · exact fun isNext => ⟨between, rfl, isNext⟩
      · rintro ⟨_, ⟨⟩, isNext⟩
        exact isNext

/-- The records of rows can be told unless a whole number in them has too many
digits.  Rows that are not JSON leave no record. -/
theorem filterMapM_ofLine_eq_ok_iff {rows : List Text} {records : List Json} :
    rows.filterMapM ofLine = .ok records ↔
      (∀ row ∈ rows, ¬ IsOverlong row) ∧ records = rows.filterMap valueOf? := by
  induction rows generalizing records with
  | nil =>
      constructor
      · rintro ⟨⟩
        exact ⟨nofun, rfl⟩
      · rintro ⟨-, rfl⟩
        rfl
  | cons row rest inductionHypothesis =>
      rw [List.filterMapM_cons, bind_eq_ok_iff, List.forall_mem_cons,
        List.filterMap_cons]
      simp only [ofLine_eq_ok_iff]
      constructor
      · rintro ⟨_, ⟨fits, rfl⟩, isRest⟩
        cases found : valueOf? row with
        | none =>
            rw [found] at isRest
            obtain ⟨others, same⟩ := inductionHypothesis.mp isRest
            exact ⟨⟨fits, others⟩, same⟩
        | some record =>
            rw [found] at isRest
            obtain ⟨later, isLater, isRecord⟩ := bind_eq_ok_iff.mp isRest
            obtain ⟨others, rfl⟩ := inductionHypothesis.mp isLater
            cases isRecord
            exact ⟨⟨fits, others⟩, rfl⟩
      · rintro ⟨⟨fits, others⟩, rfl⟩
        refine ⟨valueOf? row, ⟨fits, rfl⟩, ?_⟩
        have isLater := inductionHypothesis.mpr ⟨others, rfl⟩
        cases valueOf? row with
        | none =>
            exact isLater
        | some record =>
            exact bind_eq_ok_iff.mpr ⟨_, isLater, rfl⟩

section Conditions

variable {Told Holds : Json → Prop} [DecidablePred Holds]
  {records kept : List Json}

private theorem filterAuxM_eq_ok_iff {condition : Json → Except Fault Bool}
    (tells : ∀ record answer, condition record = .ok answer ↔
      Told record ∧ answer = decide (Holds record)) {before : List Json} :
    records.filterAuxM condition before = .ok kept ↔
      (∀ record ∈ records, Told record) ∧
        kept = (records.filter Holds).reverse ++ before := by
  induction records generalizing before kept with
  | nil =>
      constructor
      · rintro ⟨⟩
        exact ⟨nofun, rfl⟩
      · rintro ⟨-, rfl⟩
        rfl
  | cons record rest inductionHypothesis =>
      rw [List.filterAuxM, bind_eq_ok_iff, List.forall_mem_cons,
        List.filter_cons]
      simp only [tells, inductionHypothesis]
      constructor
      · rintro ⟨_, ⟨told, rfl⟩, others, rfl⟩
        refine ⟨⟨told, others⟩, ?_⟩
        by_cases isKept : Holds record <;> simp [isKept]
      · rintro ⟨⟨told, others⟩, rfl⟩
        refine ⟨_, ⟨told, rfl⟩, others, ?_⟩
        by_cases isKept : Holds record <;> simp [isKept]

/-- Records are filtered just where the condition can be told of each of them. -/
theorem filterM_eq_ok_iff {condition : Json → Except Fault Bool}
    (tells : ∀ record answer, condition record = .ok answer ↔
      Told record ∧ answer = decide (Holds record)) :
    records.filterM condition = .ok kept ↔
      (∀ record ∈ records, Told record) ∧ kept = records.filter Holds := by
  rw [List.filterM, bind_eq_ok_iff]
  simp only [filterAuxM_eq_ok_iff tells, List.append_nil]
  constructor
  · rintro ⟨_, ⟨told, rfl⟩, ⟨⟩⟩
    exact ⟨told, List.reverse_reverse _⟩
  · rintro ⟨told, rfl⟩
    exact ⟨_, ⟨told, rfl⟩, congrArg Except.ok (List.reverse_reverse _)⟩

/-- Only a condition with a text must be told of the records. -/
theorem narrow_eq_ok_iff {condition : Text → Json → Except Fault Bool}
    {value : Text}
    (tells : ∀ record answer, condition value record = .ok answer ↔
      Told record ∧ answer = decide (Holds record)) :
    narrow condition value records = .ok kept ↔
      (value ≠ [] → ∀ record ∈ records, Told record) ∧
        kept = records.filter fun record => value ≠ [] → Holds record := by
  unfold narrow
  cases value with
  | nil =>
      simp [eq_comm]
  | cons c rest =>
      simpa using filterM_eq_ok_iff tells

end Conditions

section Fields

variable {record : Json} {fields : List (Text × Json)}

/-- What a field of an object holds is its text, whatever the other names are. -/
theorem holds_eq_decide (found : record.fields? = some fields) (name : String)
    (value : Text) :
    holds name value fields = decide (record.textOf? name = some value) := by
  rw [Bool.eq_iff_iff, decide_eq_true_eq, Json.textOf?, Json.field?_eq found,
    holds]
  cases Table.get? fields name.toList with
  | none =>
      simp
  | some held =>
      cases held <;> simp

/-- An object is an event where its context is an object, if it has one. -/
theorem isEvent_iff (found : record.fields? = some fields) :
    IsEvent record ↔
      ∀ context ∈ Table.get? fields "context".toList, context.IsObject := by
  rw [← Json.field?_eq found]
  exact ⟨IsEvent.context, IsEvent.mk ⟨fields, found⟩⟩

end Fields

theorem objectHolds_eq_ok_iff {name : String} {value : Text} (record : Json)
    (answer : Bool) :
    objectHolds name value record = .ok answer ↔
      record.IsObject ∧
        answer = decide (record.textOf? name = some value) := by
  unfold objectHolds Json.IsObject
  cases found : record.fields? with
  | none =>
      simp
  | some fields =>
      simp [holds_eq_decide found, eq_comm]

theorem inSession_eq_ok_iff {session : Text} (record : Json) (answer : Bool) :
    inSession session record = .ok answer ↔
      IsEvent record ∧
        answer = decide (record.sessionOf? = some session) := by
  unfold inSession Json.sessionOf?
  cases found : record.fields? with
  | none =>
      refine iff_of_false (by rintro ⟨⟩) ?_
      rintro ⟨⟨⟨fields, isFields⟩, -⟩, -⟩
      cases found.symm.trans isFields
  | some fields =>
      dsimp only
      rw [isEvent_iff found, Json.field?_eq found]
      cases Table.get? fields "context".toList with
      | none =>
          simp [eq_comm]
      | some context =>
          rw [Option.bind_some, objectHolds_eq_ok_iff]
          simp

end Records

namespace LogQuery

/-- A record that has the level and the topic that are asked for. -/
structure Concerns (query : LogQuery) (record : Json) : Prop where
  level : query.level ≠ [] → record.textOf? "level" = some query.level
  topic : query.topic ≠ [] → record.textOf? "event_type" = some query.topic

/-- A record that satisfies all that is asked for. -/
structure Matches (query : LogQuery) (record : Json) : Prop
    extends query.Concerns record where
  session : query.session ≠ [] → record.sessionOf? = some query.session

instance (query : LogQuery) : DecidablePred query.Concerns :=
  fun record => decidable_of_iff
    ((query.level ≠ [] → record.textOf? "level" = some query.level) ∧
      (query.topic ≠ [] → record.textOf? "event_type" = some query.topic))
    ⟨fun both => ⟨both.1, both.2⟩, fun concerns =>
      ⟨concerns.level, concerns.topic⟩⟩

instance (query : LogQuery) : DecidablePred query.Matches :=
  fun record => decidable_of_iff
    (query.Concerns record ∧
      (query.session ≠ [] → record.sessionOf? = some query.session))
    ⟨fun both => ⟨both.1, both.2⟩, fun isMatch =>
      ⟨isMatch.toConcerns, isMatch.session⟩⟩

/-- Records in which every field that is asked for can be looked up.  The session
is looked up only where level and topic are as asked for. -/
structure IsAskable (query : LogQuery) (records : List Json) : Prop where
  objects : query.level ≠ [] ∨ query.topic ≠ [] →
    ∀ record ∈ records, record.IsObject
  events : query.session ≠ [] →
    ∀ record ∈ records, query.Concerns record → Records.IsEvent record

/-- What a question is to be answered with: the records that match, the latest
first, as many as one question is answered with. -/
def answer (query : LogQuery) (records : List Json) : List Json :=
  (records.filter query.Matches).reverse.take
    (min query.limit Journal.answerLimit).toNat

/-- Records that match are those which are left by all three conditions. -/
theorem filter_matches (query : LogQuery) (records : List Json) :
    (((records.filter fun record =>
        query.level ≠ [] → record.textOf? "level" = some query.level).filter
      fun record => query.topic ≠ [] →
        record.textOf? "event_type" = some query.topic).filter
      fun record => query.session ≠ [] →
        record.sessionOf? = some query.session) =
      records.filter query.Matches := by
  rw [List.filter_filter, List.filter_filter]
  refine List.filter_congr fun record _ => ?_
  rw [Bool.eq_iff_iff]
  simp only [Bool.and_eq_true, decide_eq_true_eq]
  exact ⟨fun all => ⟨⟨all.2, all.1.2⟩, all.1.1⟩,
    fun isMatch => ⟨⟨isMatch.session, isMatch.topic⟩, isMatch.level⟩⟩

/-- The records that match are told just where they can be asked for. -/
theorem select_eq_ok_iff {query : LogQuery} {records kept : List Json} :
    query.select records = .ok kept ↔
      query.IsAskable records ∧ kept = records.filter query.Matches := by
  unfold select
  simp only [Records.bind_eq_ok_iff,
    Records.narrow_eq_ok_iff Records.objectHolds_eq_ok_iff,
    Records.narrow_eq_ok_iff Records.inSession_eq_ok_iff]
  constructor
  · rintro ⟨_, ⟨levels, rfl⟩, _, ⟨topics, rfl⟩, sessions, rfl⟩
    simp only [List.mem_filter, decide_eq_true_eq] at topics sessions
    refine ⟨⟨?_, ?_⟩, query.filter_matches records⟩
    · intro asked record member
      by_cases given : query.level = []
      · exact topics (asked.resolve_left (· given)) record
          ⟨member, (absurd given ·)⟩
      · exact levels given record member
    · exact fun asked record member concerns => sessions asked record
        ⟨⟨member, concerns.level⟩, concerns.topic⟩
  · rintro ⟨askable, rfl⟩
    refine ⟨_, ⟨fun asked => askable.objects (.inl asked), rfl⟩,
      _, ⟨fun asked record member => ?_, rfl⟩, fun asked record member => ?_,
      (query.filter_matches records).symm⟩
    · exact askable.objects (.inr asked) record
        (List.mem_filter.mp member).1
    · simp only [List.mem_filter, decide_eq_true_eq] at member
      exact askable.events asked record member.1.1
        ⟨member.1.2, member.2⟩

/-- Records that look like events can be asked for everything. -/
theorem isAskable_of_isEvent {query : LogQuery} {records : List Json}
    (each : ∀ record ∈ records, Records.IsEvent record) :
    query.IsAskable records :=
  ⟨fun _ record member => (each record member).object,
    fun _ record member _ => each record member⟩

theorem mem_of_mem_answer {query : LogQuery} {records : List Json}
    {record : Json} (member : record ∈ query.answer records) :
    record ∈ records ∧ query.Matches record := by
  have found := List.mem_reverse.mp (List.mem_of_mem_take member)
  rw [List.mem_filter, decide_eq_true_eq] at found
  exact found

end LogQuery

namespace Journal

def rows (journal : Journal) (path : Text) : List Text :=
  Text.lines (Text.ofBytes
    (Records.tail journal.readLimit.toNat (journal.contentOf path)))

def values (journal : Journal) (path : Text) : List Json :=
  (journal.rows path).filterMap Records.valueOf?

variable {journal : Journal}

/-- A question is answered just where all fields that it asks for can be looked
up. -/
theorem events_eq_ok_iff (natural : 0 ≤ journal.readLimit) {query : LogQuery}
    (limit : 0 ≤ query.limit) {answer : List Json} :
    journal.events query = .ok answer ↔
      (∀ row ∈ journal.rows mainFile, ¬ Records.IsOverlong row) ∧
        query.IsAskable (journal.values mainFile) ∧
        answer = query.answer (journal.values mainFile) := by
  have positive : ¬ min query.limit answerLimit < 0 :=
    Int.not_lt.mpr (le_min limit (by decide))
  have upTo : ∀ records : List Json,
      Records.upTo (min query.limit answerLimit) records =
        records.take (min query.limit answerLimit).toNat :=
    fun records => if_neg positive
  have selects : ∀ records kept,
      LogQuery.select { query with limit := min query.limit answerLimit }
        records = .ok kept ↔
      query.IsAskable records ∧ kept = records.filter query.Matches :=
    fun records kept => (LogQuery.select_eq_ok_iff :
      query.select records = .ok kept ↔ _)
  unfold events
  rw [recordsOf_eq natural isStorable_mainFile, Records.ofText,
    Records.bind_eq_ok_iff]
  simp only [Records.filterMapM_ofLine_eq_ok_iff, LogQuery.latest,
    Records.bind_eq_ok_iff, selects, upTo]
  constructor
  · rintro ⟨_, ⟨fits, rfl⟩, _, ⟨askable, rfl⟩, ⟨⟩⟩
    exact ⟨fits, askable, rfl⟩
  · rintro ⟨fits, askable, rfl⟩
    exact ⟨_, ⟨fits, rfl⟩, _, ⟨askable, rfl⟩, rfl⟩

/-- The line of an event stands in a file as a line of its own, within what is
read of the file. -/
def HoldsLine (journal : Journal) (path : Text) (event : LogEvent) : Prop :=
  ∃ before after,
    journal.contentOf path =
      before ++ (Text.toBytes (lineOf event) ++ after) ∧
    Records.EndsLine before ∧
    ((journal.contentOf path).length ≤ journal.readLimit.toNat ∨
      (Text.toBytes (lineOf event) ++ after).length < journal.readLimit.toNat)

variable {event : LogEvent}

private theorem ofBytes_lineOf_append (legible : event.toJson.Legible)
    (after : Bytes) :
    Text.ofBytes (Text.toBytes (lineOf event) ++ after) =
      event.toJson.toLine ++ '\n' :: Text.ofBytes after := by
  have ascii : ∀ c ∈ event.toJson.toLine, c.toNat < 0x80 :=
    fun c member => ascii_lineOf legible c (List.mem_append_left _ member)
  have bytes : Text.toBytes (lineOf event) ++ after =
      Text.toBytes event.toJson.toLine ++ 10 :: after := by
    rw [lineOf, Text.toBytes, List.flatMap_append, List.append_assoc]
    rfl
  rw [bytes, Text.ofBytes_append, Text.ofBytes_toBytes ascii]

/-- The line of an event is one of the rows, whatever the lines before and behind
it are. -/
theorem toLine_mem_lines (legible : event.toJson.Legible) {left : Bytes}
    (endsLine : Records.EndsLine left) (after : Bytes) :
    event.toJson.toLine ∈ Text.lines
      (Text.ofBytes (left ++ (Text.toBytes (lineOf event) ++ after))) := by
  have plain : ∀ c ∈ event.toJson.toLine, Text.isPlain c = true :=
    legible.plain 0
  have isFirst : event.toJson.toLine ∈
      Text.lines (Text.ofBytes (Text.toBytes (lineOf event) ++ after)) := by
    rw [ofBytes_lineOf_append legible, Text.lines, Text.linesFrom_append plain]
    exact List.mem_cons_self
  rcases List.eq_nil_or_concat' left with rfl | ⟨start, byte, rfl⟩
  · exact isFirst
  · obtain rfl : byte = 10 := endsLine byte List.getLast?_concat
    rw [List.append_assoc, List.singleton_append, Text.ofBytes_append,
      Text.lines, Text.linesFrom_append_feed]
    exact List.mem_append_right _ isFirst

/-- The record of an event is read wherever its line stands. -/
theorem HoldsLine.ordered_mem_values {path : Text}
    (holdsLine : journal.HoldsLine path event)
    (legible : event.toJson.Legible) :
    event.toJson.ordered ∈ journal.values path := by
  obtain ⟨before, after, content, endsLine, near⟩ := holdsLine
  rw [content] at near
  obtain ⟨left, leftEnds, isTail⟩ :=
    Records.exists_tail_append endsLine near
  have isRow : event.toJson.toLine ∈ journal.rows path := by
    rw [rows, content, isTail]
    exact toLine_mem_lines legible leftEnds after
  have isRead := (Records.ofLine_eq_ok_iff.mp (ofLine_toLine legible)).2
  exact List.mem_filterMap.mpr ⟨_, isRow, isRead.symm⟩

theorem isEvent_ordered
    (distinct : (Json.object event.context).HasDistinctNames) :
    Records.IsEvent event.toJson.ordered := by
  have isObject : ∀ fields, (Json.object fields).ordered.IsObject := by
    intro fields
    rw [Json.ordered]
    exact ⟨_, rfl⟩
  refine ⟨isObject event.fields, ?_⟩
  rw [LogEvent.field?_context_ordered distinct]
  rintro _ ⟨⟩
  exact isObject event.context

/-- Whatever the file for all events holds, a question is answered just where no
number is too long and each field that it asks for can be looked up. The answer
tells the records that match, the latest first, as many as are asked for. So a
file in which all JSON looks like events answers every question with events
alone, and the line of an event is read among any other lines. -/
theorem events_of_any_file (natural : 0 ≤ journal.readLimit) {query : LogQuery}
    (limit : 0 ≤ query.limit) :
    let rows := journal.rows mainFile
    let values := journal.values mainFile
    (∀ answer, journal.events query = .ok answer ↔
      (∀ row ∈ rows, ¬ Records.IsOverlong row) ∧
        query.IsAskable values ∧ answer = query.answer values) ∧
    ((∀ row ∈ rows, Records.IsSound row) →
      journal.events query = .ok (query.answer values) ∧
        ∀ record ∈ query.answer values, Records.IsEvent record) ∧
    ∀ event : LogEvent, (Json.object event.context).HasDistinctNames →
      event.toJson.isPrintable = true → journal.HoldsLine mainFile event →
      event.toJson.ordered ∈ values ∧
        Records.IsEvent event.toJson.ordered := by
  intro rows values
  have answered : ∀ answer, journal.events query = .ok answer ↔ _ :=
    fun answer => events_eq_ok_iff natural limit
  refine ⟨answered, fun sound => ?_, fun event distinct printable holdsLine => ?_⟩
  · have each : ∀ record ∈ values, Records.IsEvent record := by
      intro record member
      obtain ⟨row, isRow, isValue⟩ := List.mem_filterMap.mp member
      exact (sound row isRow).event record isValue
    refine ⟨(answered _).mpr ⟨fun row isRow => (sound row isRow).fits,
      LogQuery.isAskable_of_isEvent each, rfl⟩, ?_⟩
    exact fun record member =>
      each record (LogQuery.mem_of_mem_answer member).1
  · have legible : event.toJson.Legible :=
      (LogEvent.hasDistinctNames_toJson distinct).legible printable
    exact ⟨holdsLine.ordered_mem_values legible, isEvent_ordered distinct⟩

/-- A row that is no more than a level. -/
def levelRow : Text :=
  ['\x7b', '\x22', 'l', 'e', 'v', 'e', 'l', '\x22', ':', '\x22', 'i', 'n', 'f',
    'o', '\x22', '\x7d']

/-- A journal whose file for all events holds a row that is not JSON and a
level. -/
def damaged : Journal :=
  { empty 400 with
    files := [(mainFile, Text.toBytes ("?\n".toList ++ levelRow))] }

theorem events_of_any_file_damaged :
    let query : LogQuery := ⟨"info".toList, [], [], 5⟩
    0 ≤ damaged.readLimit ∧ 0 ≤ query.limit ∧
      (∀ row ∈ damaged.rows mainFile, Records.IsSound row) ∧
      damaged.events query =
        .ok [.object [("level".toList, .literal "info")]] := by
  intro query
  have natural : 0 ≤ damaged.readLimit := by decide
  have limit : 0 ≤ query.limit := by decide
  have isRead : damaged.rows mainFile = [['?'], levelRow] := by decide +kernel
  have first : Json.ofText (Text.strip ['?']) = .error .malformed := rfl
  have second : Json.ofText (Text.strip levelRow) =
      .ok (.object [("level".toList, .literal "info")]) := rfl
  have sound : ∀ row ∈ damaged.rows mainFile, Records.IsSound row := by
    rw [isRead]
    simp only [List.forall_mem_cons]
    refine ⟨⟨?_, ?_⟩, ⟨?_, ?_⟩, nofun⟩
    · simp [Records.IsOverlong, first]
    · simp [Records.valueOf?, first, Except.toOption]
    · simp [Records.IsOverlong, second]
    · rw [Records.valueOf?, second]
      rintro _ ⟨⟩
      exact ⟨⟨_, rfl⟩, nofun⟩
  have values : damaged.values mainFile =
      [.object [("level".toList, .literal "info")]] := by
    simp [values, isRead, Records.valueOf?, first, second, Except.toOption]
  have told := (events_of_any_file natural limit).2.1 sound
  refine ⟨natural, limit, sound, told.1.trans (congrArg Except.ok ?_)⟩
  have isMatch :
      query.Matches (.object [("level".toList, .literal "info")]) :=
    ⟨⟨fun _ => rfl, (absurd rfl ·)⟩, (absurd rfl ·)⟩
  rw [values, LogQuery.answer, List.filter_singleton, decide_eq_true isMatch]
  rfl

/-- A journal whose file for all events holds a number alone. -/
def stray : Journal :=
  { empty 400 with files := [(mainFile, Text.toBytes "5\n".toList)] }

/-- One row that holds a number keeps a question for a level from being answered,
and is taken for an event where nothing is asked for. -/
theorem events_stray :
    stray.events ⟨"info".toList, [], [], 200⟩ = .error .noFields ∧
      stray.events (.all 200) = .ok [.integer 5] :=
  ⟨rfl, rfl⟩

end Journal

end CurrencyPad
