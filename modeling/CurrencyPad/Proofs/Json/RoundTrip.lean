import CurrencyPad.Proofs.Json.Numbers
import CurrencyPad.Proofs.Text.Table

/-!
# Values as they are printed

A value on one line is read as the value again, with the fields of every object
in the order of their names.  Its text holds plain characters of ASCII only.
-/

namespace CurrencyPad

namespace Json

/-- A value as JSON has them: an object has texts for names, none of them twice,
and doubles are finite. -/
inductive IsProper : Json → Prop
  | null : IsProper .null
  | boolean (value : Bool) : IsProper (.boolean value)
  | integer (value : Int) : IsProper (.integer value)
  | real {value : Float} (finite : value.isFinite = true) :
      IsProper (.real value)
  | string (value : Text) : IsProper (.string value)
  | broken {points : List Nat} (joined : IsJoined points)
      (halved : points.any Text.isHalf = true) : IsProper (.broken points)
  | array {items : List Json} (each : ∀ item ∈ items, IsProper item) :
      IsProper (.array items)
  | object {fields : List (Text × Json)}
      (distinct : (Table.names fields).Nodup)
      (each : ∀ field ∈ fields, IsProper field.2) :
      IsProper (.object fields)

/-- A value whose objects have texts for names, none of them twice. Its doubles
may be infinite or undefined. -/
inductive HasDistinctNames : Json → Prop
  | null : HasDistinctNames .null
  | boolean (value : Bool) : HasDistinctNames (.boolean value)
  | integer (value : Int) : HasDistinctNames (.integer value)
  | real (value : Float) : HasDistinctNames (.real value)
  | string (value : Text) : HasDistinctNames (.string value)
  | broken {points : List Nat} (joined : IsJoined points)
      (halved : points.any Text.isHalf = true) : HasDistinctNames (.broken points)
  | array {items : List Json} (each : ∀ item ∈ items, HasDistinctNames item) :
      HasDistinctNames (.array items)
  | object {fields : List (Text × Json)}
      (distinct : (Table.names fields).Nodup)
      (each : ∀ field ∈ fields, HasDistinctNames field.2) :
      HasDistinctNames (.object fields)

theorem IsProper.hasDistinctNames {value : Json} (proper : value.IsProper) :
    value.HasDistinctNames := by
  induction proper with
  | null =>
      exact .null
  | boolean value =>
      exact .boolean value
  | integer value =>
      exact .integer value
  | real =>
      exact .real _
  | string value =>
      exact .string value
  | broken joined halved =>
      exact .broken joined halved
  | array _ inductionHypothesis =>
      exact .array inductionHypothesis
  | object distinct _ inductionHypothesis =>
      exact .object distinct inductionHypothesis

mutual

/-- A value with the fields of every object in the order of their names. -/
def ordered : Json → Json
  | .array items => .array (orderedItems items)
  | .object fields => .object (Table.sorted (orderedFields fields))
  | other => other

def orderedItems : List Json → List Json
  | [] => []
  | item :: rest => ordered item :: orderedItems rest

/-- The fields of an object with their values in order. -/
def orderedFields : List (Text × Json) → List (Text × Json)
  | [] => []
  | (name, value) :: rest => (name, ordered value) :: orderedFields rest

end

theorem orderedItems_eq_map (items : List Json) :
    orderedItems items = items.map ordered := by
  induction items with
  | nil =>
      rfl
  | cons item rest inductionHypothesis =>
      rw [orderedItems, inductionHypothesis, List.map_cons]

theorem orderedFields_eq_map (fields : List (Text × Json)) :
    orderedFields fields =
      fields.map fun field => (field.1, field.2.ordered) := by
  induction fields with
  | nil =>
      rfl
  | cons field rest inductionHypothesis =>
      rw [orderedFields, inductionHypothesis, List.map_cons]

theorem renderItems_eq_map (layout : Layout) (level : Nat)
    (items : List Json) :
    renderItems layout level items = items.map (render layout level) := by
  induction items with
  | nil =>
      rfl
  | cons item rest inductionHypothesis =>
      rw [renderItems, inductionHypothesis, List.map_cons]

theorem renderFields_eq_map (layout : Layout) (level : Nat)
    (fields : List (Text × Json)) :
    renderFields layout level fields =
      fields.map fun field => (field.1, render layout level field.2) := by
  induction fields with
  | nil =>
      rfl
  | cons field rest inductionHypothesis =>
      rw [renderFields, inductionHypothesis, List.map_cons]

theorem areItemsPrintable_iff (items : List Json) :
    areItemsPrintable items = true ↔
      ∀ item ∈ items, item.isPrintable = true := by
  induction items with
  | nil =>
      simp [areItemsPrintable]
  | cons item rest inductionHypothesis =>
      simp [areItemsPrintable, inductionHypothesis]

theorem areFieldsPrintable_iff (fields : List (Text × Json)) :
    areFieldsPrintable fields = true ↔
      ∀ field ∈ fields, field.2.isPrintable = true := by
  induction fields with
  | nil =>
      simp [areFieldsPrintable]
  | cons field rest inductionHypothesis =>
      simp [areFieldsPrintable, inductionHypothesis]

/-! ## Legible values -/

/-- A text that begins with no blank and no closing bracket. -/
def Begins (text : Text) : Prop :=
  ∃ c rest, text = c :: rest ∧ isSpace c = false ∧ c ≠ ']'

theorem Begins.append {text : Text} (begins : Begins text) (rest : Text) :
    Begins (text ++ rest) := by
  obtain ⟨c, others, rfl, visible, noEnd⟩ := begins
  exact ⟨c, others ++ rest, rfl, visible, noEnd⟩

theorem skipSpace_cons {c : Char} (visible : isSpace c = false)
    (rest : Text) : skipSpace (c :: rest) = c :: rest :=
  List.dropWhile_cons_of_neg (by rw [visible]; exact Bool.false_ne_true)

theorem Begins.skipSpace {text : Text} (begins : Begins text) :
    skipSpace text = text := by
  obtain ⟨c, others, rfl, visible, _⟩ := begins
  exact skipSpace_cons visible others

/-- What is printed of a value is plain, begins with the value, and is read as
the value wherever a number would end after it. -/
structure Legible (value : Json) : Prop where
  begins : ∀ level, Begins (render .oneLine level value)
  plain : ∀ level, ∀ c ∈ render .oneLine level value, Text.isPlain c = true
  reads : ∀ level depth rest, EndsNumber rest →
    2 * (render .oneLine level value).length ≤ depth →
      Json.value depth (render .oneLine level value ++ rest) =
        .ok (value.ordered, rest)

/-- A value is legible if it is printed as the same text on every level and
this text is. -/
private theorem Legible.of_text {value : Json} {text : Text}
    (printed : ∀ level, render .oneLine level value = text)
    (begins : Begins text) (plain : ∀ c ∈ text, Text.isPlain c = true)
    (reads : ∀ depth rest, EndsNumber rest →
      Json.value (depth + 1) (text ++ rest) = .ok (value.ordered, rest)) :
    value.Legible where
  begins level := by
    rw [printed]
    exact begins
  plain level := by
    rw [printed]
    exact plain
  reads level depth rest ends enough := by
    obtain ⟨c, others, isText, _⟩ := begins
    rw [printed, isText, List.length_cons] at enough
    obtain ⟨depth, rfl⟩ :=
      Nat.exists_eq_add_one_of_ne_zero (show depth ≠ 0 by omega)
    rw [printed]
    exact reads depth rest ends

/-! ## Words, strings and numbers -/

private theorem value_of_word? {text rest : Text} {value : Json}
    (isWord : word? text = some (value, rest)) (depth : Nat) :
    Json.value (depth + 1) text = .ok (value, rest) := by
  unfold Json.value
  rw [isWord]

/-- A word is read as its value. -/
private theorem legible_of_word {value : Json} {c : Char} {word : Text}
    (printed : ∀ level, render .oneLine level value = c :: word)
    (begins : isSpace c = false ∧ c ≠ ']')
    (plain : (c :: word).all Text.isPlain = true)
    (isWord : ∀ rest,
      word? (c :: word ++ rest) = some (value.ordered, rest)) :
    value.Legible :=
  .of_text printed ⟨c, word, rfl, begins⟩ (List.all_eq_true.mp plain)
    fun depth rest _ => value_of_word? (isWord rest) depth

theorem legible_null : Legible .null :=
  @legible_of_word .null 'n' _ (fun _ => rfl) (by decide) (by decide)
    fun _ => rfl

theorem legible_boolean (value : Bool) : Legible (.boolean value) := by
  cases value with
  | false =>
      exact @legible_of_word (.boolean false) 'f' _ (fun _ => rfl)
        (by decide) (by decide) fun _ => rfl
  | true =>
      exact @legible_of_word (.boolean true) 't' _ (fun _ => rfl)
        (by decide) (by decide) fun _ => rfl

/-- A string is read as the value that its code points make up. -/
private theorem legible_of_points {points : List Nat} (joined : IsJoined points)
    {value : Json}
    (printed : ∀ level, render .oneLine level value = pointsText points)
    (same : ofPoints points = value.ordered) : value.Legible := by
  refine .of_text printed ⟨'\x22', _, rfl, by decide, by decide⟩
    (isPlain_pointsText points) ?_
  intro depth rest _
  obtain ⟨body, isText, isRead⟩ := string?_pointsText joined rest
  have opened : Json.value (depth + 1) ('\x22' :: body) =
      (ofOption (string? body)).map fun read =>
        (ofPoints read.1, read.2) := rfl
  rw [isText, opened, isRead, ← same]
  rfl

theorem legible_string (value : Text) : Legible (.string value) := by
  refine legible_of_points (isJoined_map_toNat value)
    (fun _ => (pointsText_map_toNat value).symm) ?_
  rw [ofPoints, ofPoints?_map_toNat]
  rfl

theorem legible_broken {points : List Nat} (joined : IsJoined points)
    (halved : points.any Text.isHalf = true) : Legible (.broken points) := by
  refine legible_of_points joined (fun _ => rfl) ?_
  rw [ofPoints, Text.ofPoints?, if_pos halved]
  rfl

/-- A number is no word. -/
private theorem word?_number {c : Char} (digit : Text.isAsciiDigit c = true)
    (negative : Bool) (rest : Text) :
    word? (Text.withSign negative (c :: rest)) = none := by
  have member := Text.mem_asciiDigits_of_isAsciiDigit digit
  simp only [Text.asciiDigits, List.mem_cons, List.not_mem_nil, or_false]
    at member
  rcases member with rfl | rfl | rfl | rfl | rfl | rfl | rfl | rfl | rfl | rfl
    <;> cases negative <;> rfl

private theorem value_number {numeral : Numeral} (valid : numeral.Valid)
    (negative : Bool) (depth : Nat) (rest : Text) :
    Json.value (depth + 1) (Text.withSign negative numeral.text ++ rest) =
      number negative (numeral.text ++ rest) := by
  obtain ⟨c, others, isText, digit⟩ := numeral.exists_text valid
  have noWord := word?_number digit negative (others ++ rest)
  rw [isText]
  cases negative with
  | true =>
      unfold Json.value
      split
      case h_1 found isWord =>
        cases noWord.symm.trans isWord
      · rfl
  | false =>
      have different : ∀ d : Char, Text.isAsciiDigit d = false → c ≠ d := by
        rintro d noDigit rfl
        rw [digit] at noDigit
        cases noDigit
      unfold Json.value
      split
      case h_1 found isWord =>
        cases noWord.symm.trans isWord
      · split
        case h_1 starts =>
          exact absurd (List.cons.inj starts).1 (different _ (by decide))
        case h_2 starts =>
          exact absurd (List.cons.inj starts).1 (different _ (by decide))
        case h_3 starts =>
          exact absurd (List.cons.inj starts).1 (different _ (by decide))
        case h_4 starts =>
          exact absurd (List.cons.inj starts).1 (different _ (by decide))
        · rfl

/-- What is printed of a number is plain, and begins with a sign or a digit. -/
private theorem legible_of_numeral {value : Json} {numeral : Numeral}
    (valid : numeral.Valid) {negative : Bool}
    (printed : ∀ level, render .oneLine level value =
      Text.withSign negative numeral.text)
    (reads : ∀ rest, EndsNumber rest →
      number negative (numeral.text ++ rest) = .ok (value.ordered, rest)) :
    value.Legible := by
  refine .of_text printed ?_ (numeral.isPlain_withSign valid negative) ?_
  · obtain ⟨c, others, isText, digit⟩ := numeral.exists_text valid
    rw [isText]
    cases negative with
    | false =>
        have visible := Text.of_isAsciiDigit
          (fun d => !isSpace d && d != ']') (by decide) digit
        simp only [Bool.and_eq_true, Bool.not_eq_true', bne_iff_ne, ne_eq]
          at visible
        exact ⟨c, others, rfl, visible.1, visible.2⟩
    | true =>
        exact ⟨'-', c :: others, rfl, by decide, by decide⟩
  · intro depth rest ends
    rw [value_number valid, reads rest ends]

theorem legible_integer {value : Int}
    (printable : (Json.integer value).isPrintable = true) :
    Legible (.integer value) := by
  obtain ⟨numeral, valid, noPoint, printed, length, same⟩ :=
    exists_integerText value
  refine legible_of_numeral valid (fun _ => printed) ?_
  intro rest ends
  have few : numeral.whole.length ≤ Integer.digitLimit := by
    rw [length]
    exact of_decide_eq_true printable
  have isRead := numeral.number_integer valid noPoint few (value < 0) ends
  rw [isRead]
  simp only [decide_eq_true_eq, same]
  rfl

private theorem legible_finite {value : Float}
    (finite : value.isFinite = true) : Legible (.real value) := by
  obtain ⟨negative, numeral, valid, isReal, printed, same⟩ :=
    exists_realText finite
  refine legible_of_numeral valid (fun _ => printed) ?_
  intro rest ends
  rw [numeral.number_real valid isReal negative ends, same]
  rfl

theorem legible_real (value : Float) : Legible (.real value) := by
  cases undefined : value.isNaN with
  | true =>
      rw [Binary64.eq_of_isNaN undefined]
      have printed : realText (0.0 / 0.0) = "NaN".toList := by decide +kernel
      exact legible_of_word (fun _ => printed) (by decide) (by decide)
        fun _ => rfl
  | false =>
      cases infinite : value.isInf with
      | true =>
          rcases Binary64.eq_or_eq_of_isInf infinite with rfl | rfl
          · have printed : realText (1.0 / 0.0) = "Infinity".toList := by
              decide +kernel
            exact legible_of_word (fun _ => printed) (by decide) (by decide)
              fun _ => rfl
          · have printed : realText (-1.0 / 0.0) = "-Infinity".toList := by
              decide +kernel
            exact legible_of_word (fun _ => printed) (by decide) (by decide)
              fun _ => rfl
      | false =>
          refine legible_finite ?_
          rw [Binary64.isFinite_eq, infinite, undefined]
          rfl

/-! ## Arrays -/

/-- Texts with a comma and a blank between neighbours. -/
private def listed (parts : List Text) : Text :=
  Text.join [',', ' '] parts

private theorem listed_cons_cons (first second : Text) (more : List Text) :
    listed (first :: second :: more) =
      first ++ ',' :: ' ' :: listed (second :: more) := by
  simp [listed, Text.join]

private theorem exists_listed_cons (first : Text) (others : List Text) :
    ∃ after, listed (first :: others) = first ++ after := by
  cases others with
  | nil =>
      exact ⟨[], (List.append_nil first).symm⟩
  | cons second more =>
      exact ⟨_, listed_cons_cons first second more⟩

private theorem endsNumber_cons {c : Char}
    (ends : Text.isAsciiDigit c = false ∧ c ≠ '.' ∧ c ≠ 'e' ∧ c ≠ 'E')
    (rest : Text) : EndsNumber (c :: rest) := by
  rintro d ⟨rfl⟩
  exact ends

private theorem begins_listed {first : Text} (begins : Begins first)
    (others : List Text) (rest : Text) :
    Begins (listed (first :: others) ++ rest) := by
  obtain ⟨after, starts⟩ := exists_listed_cons first others
  rw [starts, List.append_assoc]
  exact begins.append (after ++ rest)

/-- The items of an array are read from the first of them to the closing
bracket. -/
private theorem items_listed {level : Nat} {first : Json} {others : List Json}
    (legible : first.Legible) (each : ∀ value ∈ others, value.Legible)
    {depth : Nat} {text rest : Text}
    (parts : skipSpace text =
      listed ((first :: others).map (render .oneLine level)) ++ ']' :: rest)
    (enough :
      2 * (listed ((first :: others).map (render .oneLine level))).length <
        depth) :
    items depth text = .ok ((first :: others).map ordered, rest) := by
  -- The depth falls by one with every item, what is left of the text by more.
  induction others generalizing first depth text with
  | nil =>
      obtain ⟨depth, rfl⟩ :=
        Nat.exists_eq_add_one_of_ne_zero (show depth ≠ 0 by omega)
      have ends := @endsNumber_cons ']' (by decide) rest
      simp only [List.map_cons, List.map_nil, listed, Text.join]
        at parts enough
      rw [items, parts, legible.reads level depth _ ends (by omega)]
      rfl
  | cons second more inductionHypothesis =>
      obtain ⟨depth, rfl⟩ :=
        Nat.exists_eq_add_one_of_ne_zero (show depth ≠ 0 by omega)
      rw [List.forall_mem_cons] at each
      simp only [List.map_cons, listed_cons_cons, List.append_assoc,
        List.cons_append, List.length_append, List.length_cons]
        at parts enough
      have next := begins_listed (each.1.begins level)
        (more.map (render .oneLine level)) (']' :: rest)
      generalize later_eq : listed (render .oneLine level second ::
        more.map (render .oneLine level)) ++ ']' :: rest = later
          at parts next
      have isRead : items depth (' ' :: later) =
          .ok ((second :: more).map ordered, rest) := by
        refine inductionHypothesis each.1 each.2 ?_ ?_
        · rw [List.map_cons, later_eq]
          exact next.skipSpace
        · rw [List.map_cons]
          omega
      have ends := @endsNumber_cons ',' (by decide) (' ' :: later)
      rw [items, parts, legible.reads level depth _ ends (by omega)]
      change (items depth (' ' :: later)).map _ = _
      rw [isRead]
      rfl

private theorem enclose_oneLine (level : Nat) (opening closing : Char)
    (parts : List Text) :
    Layout.oneLine.enclose level opening closing parts =
      opening :: (listed parts ++ [closing]) := by
  cases parts with
  | nil =>
      rfl
  | cons first others =>
      simp [Layout.enclose, Layout.oneLine, listed]

private theorem render_array (level : Nat) (values : List Json) :
    render .oneLine level (.array values) =
      '[' :: (listed (values.map (render .oneLine (level + 1))) ++ [']']) := by
  rw [render, enclose_oneLine, renderItems_eq_map]

private theorem isPlain_listed {parts : List Text}
    (each : ∀ part ∈ parts, ∀ c ∈ part, Text.isPlain c = true) :
    ∀ c ∈ listed parts, Text.isPlain c = true := by
  induction parts with
  | nil =>
      exact nofun
  | cons first others inductionHypothesis =>
      rw [List.forall_mem_cons] at each
      cases others with
      | nil =>
          exact each.1
      | cons second more =>
          rw [listed_cons_cons]
          simp only [List.forall_mem_append, List.forall_mem_cons]
          exact ⟨each.1, by decide, by decide, inductionHypothesis each.2⟩

private theorem isPlain_enclosed {opening closing : Char} {parts : List Text}
    (brackets : Text.isPlain opening = true ∧ Text.isPlain closing = true)
    (each : ∀ part ∈ parts, ∀ c ∈ part, Text.isPlain c = true) :
    ∀ c ∈ opening :: (listed parts ++ [closing]),
      Text.isPlain c = true := by
  simp only [List.forall_mem_cons, List.forall_mem_append]
  exact ⟨brackets.1, isPlain_listed each, brackets.2, nofun⟩

/-- What is read of an array after its opening bracket and the blanks there. -/
private def afterBracket (depth : Nat) : Text → Part Json
  | ']' :: after => .ok (.array [], after)
  | start => (items depth start).map fun read => (.array read.1, read.2)

private theorem value_bracket {start : Text} (begins : Begins start)
    (depth : Nat) :
    Json.value (depth + 1) ('[' :: start) =
      (items depth start).map fun read => (.array read.1, read.2) := by
  have opened : Json.value (depth + 1) ('[' :: start) =
      afterBracket depth (skipSpace start) := rfl
  rw [opened, begins.skipSpace]
  obtain ⟨c, rest, rfl, _, noEnd⟩ := begins
  exact afterBracket.eq_2 depth _ fun _ starts =>
    noEnd (List.cons.inj starts).1

theorem legible_array {values : List Json}
    (each : ∀ value ∈ values, value.Legible) : Legible (.array values) where
  begins level := by
    rw [render_array]
    exact ⟨'[', _, rfl, by decide, by decide⟩
  plain level := by
    rw [render_array]
    refine isPlain_enclosed ⟨by decide, by decide⟩ ?_
    exact List.forall_mem_map.mpr fun value member =>
      (each value member).plain (level + 1)
  reads level depth rest _ enough := by
    rw [render_array, List.length_cons, List.length_append] at enough
    obtain ⟨depth, rfl⟩ :=
      Nat.exists_eq_add_one_of_ne_zero (show depth ≠ 0 by omega)
    rw [render_array, List.cons_append, List.append_assoc,
      List.singleton_append, ordered, orderedItems_eq_map]
    cases values with
    | nil =>
        rfl
    | cons first others =>
        rw [List.forall_mem_cons] at each
        have begins := begins_listed (each.1.begins (level + 1))
          (others.map (render .oneLine (level + 1))) (']' :: rest)
        rw [← List.map_cons] at begins
        rw [value_bracket begins, items_listed each.1 each.2 begins.skipSpace
          (by omega)]
        rfl

/-! ## Objects -/

private def fieldText (level : Nat) (field : Text × Json) : Text :=
  stringText field.1 ++ ':' :: ' ' :: render .oneLine level field.2

private theorem render_object (level : Nat) (fields : List (Text × Json)) :
    render .oneLine level (.object fields) =
      '\x7b' :: (listed ((Table.sorted fields).map (fieldText (level + 1))) ++
        ['\x7d']) := by
  have parts : (fun part : Text × Text =>
      stringText part.1 ++ ": ".toList ++ part.2) ∘
        (fun field : Text × Json =>
          (field.1, render .oneLine (level + 1) field.2)) =
      fieldText (level + 1) := by
    funext field
    simp [fieldText]
  rw [render, enclose_oneLine, renderFields_eq_map, Table.sorted_map,
    List.map_map, parts]

private theorem begins_fieldText (level : Nat) (field : Text × Json) :
    Begins (fieldText level field) :=
  ⟨'\x22', _, rfl, by decide, by decide⟩

private theorem isPlain_fieldText {field : Text × Json}
    (legible : field.2.Legible) (level : Nat) :
    ∀ c ∈ fieldText level field, Text.isPlain c = true := by
  have name := isPlain_pointsText (field.1.map Char.toNat)
  rw [pointsText_map_toNat] at name
  simp only [fieldText, List.forall_mem_append, List.forall_mem_cons]
  exact ⟨name, by decide, by decide, legible.plain level⟩

/-- A field as it is read: the code points of its name and its value in order. -/
private def fieldRead (field : Text × Json) : List Nat × Json :=
  (field.1.map Char.toNat, field.2.ordered)

/-- Fields that are read make up an object whose names are texts. -/
private theorem ofFields_map_fieldRead (fields : List (Text × Json)) :
    ofFields (fields.map fieldRead) =
      .object (fields.map fun field => (field.1, field.2.ordered)) := by
  have whole : (fields.map fieldRead).any (·.1.any Text.isHalf) = false := by
    simp [fieldRead, isHalf_toNat]
  rw [ofFields, if_neg (Bool.eq_false_iff.mp whole), List.map_map]
  simp [Function.comp_def, fieldRead, Char.ofNat_toNat]

/-- A field is read with the name and the value of which it is printed. -/
private theorem fields_of_fieldText {level depth : Nat} {field : Text × Json}
    (legible : field.2.Legible) {before : List (List Nat × Json)}
    {text after : Text}
    (parts : skipSpace text = fieldText level field ++ after)
    (ends : EndsNumber after)
    (enough : 2 * (render .oneLine level field.2).length ≤ depth) :
    fields (depth + 1) before text =
      match skipSpace after with
      | '\x7d' :: rest =>
        .ok (Table.setEntry before (fieldRead field).1 (fieldRead field).2, rest)
      | ',' :: rest =>
        fields depth
          (Table.setEntry before (fieldRead field).1 (fieldRead field).2) rest
      | _ => .error .malformed := by
  obtain ⟨name, value⟩ := field
  rw [fieldText, List.append_assoc, List.cons_append, List.cons_append,
    ← pointsText_map_toNat] at parts
  obtain ⟨body, isText, isRead⟩ := string?_pointsText (isJoined_map_toNat name)
    (':' :: ' ' :: (render .oneLine level value ++ after))
  have begins := ((legible.begins level).append after).skipSpace
  have valueRead := legible.reads level depth after ends enough
  rw [fields, parts, isText]
  change (ofOption (string? body)).bind _ = _
  rw [isRead]
  change (Json.value depth (skipSpace
    (render .oneLine level value ++ after))).bind _ = _
  rw [begins, valueRead]
  rfl

private theorem set_of_nodup {field : List Nat × Json}
    {before others : List (List Nat × Json)}
    (distinct : ((before ++ field :: others).map (·.1)).Nodup) :
    Table.setEntry before field.1 field.2 = before ++ [field] := by
  refine Table.setEntry_of_not_mem ?_ field.2
  rw [List.map_append, List.map_cons] at distinct
  exact fun member =>
    List.disjoint_of_nodup_append distinct member List.mem_cons_self

/-- The fields of an object are read from the first of them to the closing
brace, after those that are already read. -/
private theorem fields_listed {level : Nat} {first : Text × Json}
    {others : List (Text × Json)} {before : List (List Nat × Json)}
    (legible : first.2.Legible) (each : ∀ field ∈ others, field.2.Legible)
    (distinct :
      ((before ++ (first :: others).map fieldRead).map (·.1)).Nodup)
    {depth : Nat} {text rest : Text}
    (parts : skipSpace text =
      listed ((first :: others).map (fieldText level)) ++ '\x7d' :: rest)
    (enough :
      2 * (listed ((first :: others).map (fieldText level))).length <
        depth) :
    fields depth before text =
      .ok (before ++ (first :: others).map fieldRead, rest) := by
  have shorter : ∀ field : Text × Json,
      (render .oneLine level field.2).length ≤
        (fieldText level field).length := by
    intro field
    simp only [fieldText, List.length_append, List.length_cons]
    omega
  rw [List.map_cons] at distinct
  induction others generalizing first before depth text with
  | nil =>
      have short := shorter first
      obtain ⟨depth, rfl⟩ :=
        Nat.exists_eq_add_one_of_ne_zero (show depth ≠ 0 by omega)
      have ends := @endsNumber_cons '\x7d' (by decide) rest
      simp only [List.map_cons, List.map_nil, listed, Text.join]
        at parts enough
      rw [fields_of_fieldText legible parts ends (by omega),
        set_of_nodup distinct]
      rfl
  | cons second more inductionHypothesis =>
      have short := shorter first
      rw [List.forall_mem_cons] at each
      simp only [List.map_cons, listed_cons_cons, List.append_assoc,
        List.cons_append, List.length_append, List.length_cons]
        at parts enough
      have next := begins_listed (begins_fieldText level second)
        (more.map (fieldText level)) ('\x7d' :: rest)
      have distinctNext : ((before ++ [fieldRead first] ++
          fieldRead second :: more.map fieldRead).map (·.1)).Nodup := by
        rw [List.append_assoc]
        exact distinct
      obtain ⟨depth, rfl⟩ :=
        Nat.exists_eq_add_one_of_ne_zero (show depth ≠ 0 by omega)
      generalize later_eq : listed (fieldText level second ::
        more.map (fieldText level)) ++ '\x7d' :: rest = later
          at parts next
      have isRead : fields depth (before ++ [fieldRead first]) (' ' :: later) =
          .ok (before ++ [fieldRead first] ++
            (second :: more).map fieldRead, rest) := by
        refine inductionHypothesis each.1 each.2 distinctNext ?_ ?_
        · rw [List.map_cons, later_eq]
          exact next.skipSpace
        · rw [List.map_cons]
          omega
      have ends := @endsNumber_cons ',' (by decide) (' ' :: later)
      rw [fields_of_fieldText legible parts ends (by omega),
        set_of_nodup distinct]
      change fields depth _ (' ' :: later) = _
      rw [isRead]
      simp

private theorem value_brace (depth : Nat) (start : Text) :
    Json.value (depth + 1) ('\x7b' :: '\x22' :: start) =
      (fields depth [] ('\x22' :: start)).map fun (fields, after) =>
        (ofFields fields, after) := rfl

/-- Printed fields begin with the quote of the first name. -/
private theorem exists_listed_fields (level : Nat) (first : Text × Json)
    (others : List Text) (rest : Text) :
    ∃ start, listed (fieldText level first :: others) ++ rest =
      '\x22' :: start := by
  obtain ⟨after, starts⟩ :=
    exists_listed_cons (fieldText level first) others
  rw [starts]
  exact ⟨_, rfl⟩

theorem legible_object {entries : List (Text × Json)}
    (distinct : (Table.names entries).Nodup)
    (each : ∀ field ∈ entries, field.2.Legible) :
    Legible (.object entries) where
  begins level := by
    rw [render_object]
    exact ⟨'\x7b', _, rfl, by decide, by decide⟩
  plain level := by
    rw [render_object]
    refine isPlain_enclosed ⟨by decide, by decide⟩ ?_
    exact List.forall_mem_map.mpr fun field member =>
      isPlain_fieldText (each field (List.mem_mergeSort.mp member)) (level + 1)
  reads level depth rest _ enough := by
    have eachSorted : ∀ field ∈ Table.sorted entries, field.2.Legible :=
      fun field member => each field (List.mem_mergeSort.mp member)
    have distinctSorted : (Table.names (Table.sorted entries)).Nodup :=
      (Table.names_sorted_perm entries).nodup_iff.mpr distinct
    rw [render_object, List.length_cons, List.length_append] at enough
    obtain ⟨depth, rfl⟩ :=
      Nat.exists_eq_add_one_of_ne_zero (show depth ≠ 0 by omega)
    rw [render_object, List.cons_append, List.append_assoc,
      List.singleton_append, ordered, orderedFields_eq_map,
      Table.sorted_map]
    generalize Table.sorted entries = fields
      at enough eachSorted distinctSorted
    cases fields with
    | nil =>
        rfl
    | cons first others =>
        rw [List.forall_mem_cons] at eachSorted
        have begins := begins_listed (begins_fieldText (level + 1) first)
          (others.map (fieldText (level + 1))) ('\x7d' :: rest)
        have distinctRead :
            (((first :: others).map fieldRead).map (·.1)).Nodup := by
          have names : ((first :: others).map fieldRead).map (·.1) =
              (Table.names (first :: others)).map (List.map Char.toNat) := by
            simp [Table.names, fieldRead]
          rw [names]
          exact distinctSorted.map map_toNat_injective
        have isRead := @fields_listed (level + 1) first others []
          eachSorted.1 eachSorted.2 distinctRead depth _ rest
          begins.skipSpace (by rw [List.map_cons] at enough ⊢; omega)
        obtain ⟨start, quoted⟩ := exists_listed_fields (level + 1) first
          (others.map (fieldText (level + 1))) ('\x7d' :: rest)
        rw [List.map_cons, quoted, value_brace, ← quoted, isRead,
          ← ofFields_map_fieldRead]
        rfl

/-! ## All values -/

/-- A printable value is legible if no name occurs twice in an object. -/
theorem HasDistinctNames.legible {value : Json}
    (distinct : value.HasDistinctNames)
    (printable : value.isPrintable = true) : value.Legible := by
  induction distinct with
  | null =>
      exact legible_null
  | boolean value =>
      exact legible_boolean value
  | integer value =>
      exact legible_integer printable
  | real value =>
      exact legible_real value
  | string value =>
      exact legible_string value
  | broken joined halved =>
      exact legible_broken joined halved
  | array _ inductionHypothesis =>
      rw [isPrintable, areItemsPrintable_iff] at printable
      exact legible_array fun item member =>
        inductionHypothesis item member (printable item member)
  | object distinct _ inductionHypothesis =>
      rw [isPrintable, areFieldsPrintable_iff] at printable
      exact legible_object distinct fun field member =>
        inductionHypothesis field member (printable field member)

/-- A legible value on one line is read as the value with its fields in order. -/
theorem Legible.ofText_toLine {value : Json} (legible : value.Legible) :
    ofText value.toLine = .ok value.ordered := by
  have begins : Begins value.toLine := legible.begins 0
  have isRead : Json.value (2 * value.toLine.length + 2)
      (value.toLine ++ []) = .ok (value.ordered, []) :=
    legible.reads 0 _ [] nofun (Nat.le_add_right _ 2)
  rw [List.append_nil] at isRead
  rw [ofText, begins.skipSpace, isRead]
  rfl

/-- The line of an object has no blanks around it. -/
theorem strip_toLine (fields : List (Text × Json)) :
    Text.strip (object fields).toLine = (object fields).toLine := by
  rw [toLine, render_object]
  refine Text.strip_eq_self ?_ ?_
  · rintro c ⟨rfl⟩
    decide
  · rw [← List.cons_append, List.getLast?_concat]
    rintro c ⟨rfl⟩
    decide

theorem field?_eq {value : Json} {fields : List (Text × Json)}
    (found : value.fields? = some fields) (name : String) :
    value.field? name = Table.get? fields name.toList := by
  rw [field?, found, Option.bind_some]

theorem field?_object (fields : List (Text × Json)) (name : String) :
    (object fields).field? name = Table.get? fields name.toList :=
  field?_eq rfl name

/-- Putting an object in order keeps the value of every field. -/
theorem field?_ordered {fields : List (Text × Json)}
    (distinct : (Table.names fields).Nodup) (name : String) :
    (object fields).ordered.field? name =
      ((object fields).field? name).map ordered := by
  have names : Table.names (fields.map fun field =>
      (field.1, field.2.ordered)) = Table.names fields := by
    simp [Table.names]
  rw [ordered, orderedFields_eq_map, field?_object,
    Table.get?_sorted (names ▸ distinct), Table.get?_map]
  rfl

end Json

end CurrencyPad
