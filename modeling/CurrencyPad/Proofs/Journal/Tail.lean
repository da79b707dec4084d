import Mathlib
import CurrencyPad.Journal.Records

/-!
# The end of a file

A file is made of lines, each of which ends with its only line feed.  Wherever the
last bytes of a file begin, what is read of them are whole lines.
-/

namespace CurrencyPad.Records

/-- A line with the line feed at its end. -/
def IsLine (line : Bytes) : Prop :=
  ∃ body, line = body ++ [lineFeed] ∧ lineFeed ∉ body

/-- Rows of which the last are kept as far as a limit goes.  The rows that are
kept are within the limit; with one row more they reach it, and nothing is left
out if everything is within it. -/
structure KeepsLast {α : Type} (limit : Nat) (size : α → Nat)
    (rows skipped kept : List α) : Prop where
  parts : rows = skipped ++ kept
  within : (kept.map size).sum ≤ limit
  full : ∀ earlier row, skipped = earlier ++ [row] →
    limit ≤ size row + (kept.map size).sum
  whole : (rows.map size).sum ≤ limit → skipped = []

/-- Rows of which all are kept if they lie within a limit together, and otherwise
just those that begin behind the limit. -/
structure KeepsBehind {α : Type} (limit : Nat) (size : α → Nat)
    (rows skipped kept : List α) : Prop where
  parts : rows = skipped ++ kept
  kept_iff : ∀ earlier row later, rows = earlier ++ row :: later →
    (skipped.length ≤ earlier.length ↔
      (rows.map size).sum ≤ limit ∨ size row + (later.map size).sum < limit)

namespace KeepsBehind

variable {α : Type} {limit : Nat}

theorem keepsLast {size : α → Nat} {rows skipped kept : List α}
    (keeps : KeepsBehind limit size rows skipped kept) :
    KeepsLast limit size rows skipped kept := by
  obtain ⟨rfl, kept_iff⟩ := keeps
  refine ⟨rfl, ?_, ?_, ?_⟩
  · cases kept with
    | nil =>
        exact Nat.zero_le limit
    | cons row later =>
        have isKept := (kept_iff skipped row later rfl).mp le_rfl
        simp only [List.map_append, List.map_cons, List.sum_append,
          List.sum_cons] at isKept ⊢
        omega
  · rintro earlier row rfl
    have isSkipped := mt (kept_iff earlier row kept (by simp)).mpr (by simp)
    omega
  · intro fits
    cases skipped with
    | nil =>
        rfl
    | cons row later =>
        have isKept := (kept_iff [] row (later ++ kept) rfl).mpr (.inl fits)
        cases isKept

/-- What is kept of changed rows is what is kept of the rows. -/
theorem exists_of_map {β : Type} {change : α → β} {size : β → Nat}
    {rows : List α} {skipped kept : List β}
    (keeps : KeepsBehind limit size (rows.map change) skipped kept) :
    ∃ left right,
      KeepsBehind limit (fun row => size (change row)) rows left right ∧
      kept = right.map change := by
  obtain ⟨left, right, parts, rfl, rfl⟩ :=
    List.map_eq_append_iff.mp keeps.parts
  refine ⟨left, right, ⟨parts, ?_⟩, rfl⟩
  intro earlier row later same
  have kept_iff := keeps.kept_iff (earlier.map change) (change row)
    (later.map change) (by rw [same, List.map_append, List.map_cons])
  rw [List.length_map, List.length_map, List.map_map, List.map_map] at kept_iff
  exact kept_iff

end KeepsBehind

/-- What follows the first line feed of some bytes, or all of them if there is
none. -/
def behindFeed (content : Bytes) : Bytes :=
  match content.dropWhile (· != lineFeed) with
  | [] => content
  | _ :: rest => rest

theorem tail_of_lt {limit : Nat} {content : Bytes}
    (long : limit < content.length) :
    tail limit content = behindFeed (content.drop (content.length - limit)) :=
  if_neg (Nat.not_le.mpr long)

theorem behindFeed_line_append {body : Bytes} (noFeed : lineFeed ∉ body)
    (rest : Bytes) : behindFeed (body ++ lineFeed :: rest) = rest := by
  have skips : ∀ byte ∈ body, (byte != lineFeed) = true := by
    intro byte member
    rw [bne_iff_ne]
    rintro rfl
    exact noFeed member
  unfold behindFeed
  rw [List.dropWhile_append_of_pos skips]
  rfl

/-- Bytes at the end of which no line is begun. -/
def EndsLine (content : Bytes) : Prop :=
  ∀ byte ∈ content.getLast?, byte = lineFeed

/-- What begins behind the limit is read in full, whatever stands before it. -/
theorem exists_tail_append {limit : Nat} {before behind : Bytes}
    (endsLine : EndsLine before)
    (near : (before ++ behind).length ≤ limit ∨ behind.length < limit) :
    ∃ left, EndsLine left ∧ tail limit (before ++ behind) = left ++ behind := by
  by_cases short : (before ++ behind).length ≤ limit
  · exact ⟨before, endsLine, if_pos short⟩
  · have long := Nat.not_le.mp short
    have close := near.resolve_left short
    rw [tail_of_lt long]
    rw [List.length_append] at long ⊢
    have cut : before.length + behind.length - limit < before.length := by
      omega
    generalize before.length + behind.length - limit = start at cut
    -- The bytes from the cut on hold the line feed at the end of the part.
    have last : (before.drop start).getLast? = some lineFeed := by
      have nonempty : before ≠ [] := List.ne_nil_of_length_pos (by omega)
      have isLast := List.getLast?_eq_getLast_of_ne_nil nonempty
      rw [List.getLast?_drop, if_neg (Nat.not_le.mpr cut), isLast,
        endsLine _ isLast]
    obtain ⟨body, rest, parts, noFeed⟩ :=
      List.eq_append_cons_of_mem (List.mem_of_getLast? last)
    refine ⟨rest, ?_, ?_⟩
    · intro byte isLast
      rw [parts, List.getLast?_append, List.getLast?_cons, isLast] at last
      exact Option.some.inj last
    · rw [List.drop_append_of_le_length cut.le, parts, List.append_assoc,
        List.cons_append]
      exact behindFeed_line_append noFeed _

/-- Wherever some lines are cut, the lines that begin behind the cut are left
after the first incomplete line. A cut at the very start of a line takes this
line away as well. -/
private theorem exists_behindFeed_drop {lines : List Bytes}
    (each : ∀ line ∈ lines, IsLine line) (cut : Nat) :
    ∃ skipped kept, lines = skipped ++ kept ∧
      (∀ earlier line later, lines = earlier ++ line :: later →
        (skipped.length ≤ earlier.length ↔ cut < earlier.flatten.length)) ∧
      behindFeed (lines.flatten.drop cut) = kept.flatten := by
  induction lines generalizing cut with
  | nil =>
      refine ⟨[], [], rfl, fun earlier line later none => ?_, ?_⟩
      · exact absurd none.symm (by simp)
      · rw [List.flatten_nil, List.drop_nil]
        rfl
  | cons line rest inductionHypothesis =>
      rw [List.forall_mem_cons] at each
      by_cases here : cut < line.length
      · refine ⟨[line], rest, rfl, ?_, ?_⟩
        · intro earlier other later parts
          cases earlier with
          | nil =>
              simp
          | cons first between =>
              cases (List.cons.inj parts).1
              rw [List.length_cons, List.flatten_cons, List.length_append]
              exact iff_of_true (by simp) (by omega)
        · obtain ⟨body, rfl, noFeed⟩ := each.1
          rw [List.length_append, List.length_singleton] at here
          rw [List.flatten_cons, List.append_assoc,
            List.drop_append_of_le_length (by omega)]
          exact behindFeed_line_append
            (fun member => noFeed (List.mem_of_mem_drop member)) _
      · have behind : line.length ≤ cut := Nat.not_lt.mp here
        obtain ⟨skipped, kept, parts, kept_iff, left⟩ :=
          inductionHypothesis each.2 (cut - line.length)
        refine ⟨line :: skipped, kept, congrArg (line :: ·) parts, ?_, ?_⟩
        · intro earlier other later same
          cases earlier with
          | nil =>
              simp
          | cons first between =>
              obtain ⟨rfl, later_parts⟩ := List.cons.inj same
              have later_iff := kept_iff between other later later_parts
              rw [List.length_cons, List.length_cons, List.flatten_cons,
                List.length_append]
              omega
        · rw [List.flatten_cons, List.drop_append,
            List.drop_eq_nil_of_le behind, List.nil_append, left]

/-- The end of a file of lines are all lines if they lie within the limit, and
otherwise just those that begin behind it. -/
theorem exists_tail_flatten {lines : List Bytes}
    (each : ∀ line ∈ lines, IsLine line) (limit : Nat) :
    ∃ skipped kept, KeepsBehind limit List.length lines skipped kept ∧
      tail limit lines.flatten = kept.flatten := by
  have size : ∀ rows : List Bytes,
      (rows.map List.length).sum = rows.flatten.length :=
    fun rows => List.length_flatten.symm
  by_cases short : lines.flatten.length ≤ limit
  · refine ⟨[], lines, ⟨rfl, fun earlier line later _ => ?_⟩, if_pos short⟩
    rw [size]
    exact iff_of_true (Nat.zero_le _) (.inl short)
  · have long := Nat.not_le.mp short
    obtain ⟨skipped, kept, parts, kept_iff, left⟩ :=
      exists_behindFeed_drop each (lines.flatten.length - limit)
    refine ⟨skipped, kept, ⟨parts, ?_⟩, (tail_of_lt long).trans left⟩
    intro earlier line later same
    have total : lines.flatten.length =
        earlier.flatten.length + (line.length + later.flatten.length) := by
      rw [same, List.flatten_append, List.flatten_cons, List.length_append,
        List.length_append]
    rw [kept_iff earlier line later same, size, size]
    omega

end CurrencyPad.Records
