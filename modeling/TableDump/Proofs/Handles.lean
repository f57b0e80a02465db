import Mathlib
import TableDump.Proofs.Buffering

/-!
# A range that was handed out

A window that hands out a range gives two numbers, and these can be kept for as
long as one likes. Meanwhile the window is asked for other things: it grows,
its source fails, and what it holds moves when bytes are released. None of this
is known to the range.

Its numbers stay good because they are positions in the input and no places in
the window. That the range was handed out means that its bytes have been given
by the source (`Window.Handed`), and no operation takes that back: what has been
given is kept or released. So two things can be said of a range at any later
time, and the floor decides which: here are the bytes, or they have been
released (`Window.Handed.resolve?_eq`). As the floor only goes up, a range that
was released stays so (`Window.redeemed_after`).
-/

namespace TableDump

namespace Window

/-- **The window has handed out a range**, and these are its bytes. -/
structure Handed (content : Bytes) (span : Span) (window : Window) : Prop where
  ordered : span.start ≤ span.stop
  /-- The source has given all of it. -/
  given : span.stop ≤ window.source.delivered.length
  /-- This is what it has given there. -/
  content_eq : (window.source.delivered.take span.stop).drop span.start = content

variable {bytes content : Bytes} {input : Array UInt8} {span : Span} {start stop : Nat}
  {window window' : Window}

/-- A range that is handed out has its bytes then. -/
theorem Shows.handed (h : window.Shows input)
    (e : window.range start stop = (.ok span, window')) :
    span = ⟨start, stop⟩ ∧ window'.floor ≤ start ∧ window'.Shows input
      ∧ window'.Handed ((window'.source.delivered.take stop).drop start) span := by
  obtain ⟨reaches, ranged⟩ := h.ranged e
  cases ranged with
  | available hfloor ordered enough =>
    exact ⟨rfl, reaches.floor_eq.trans_le hfloor, reaches.shows, ordered, enough, rfl⟩

namespace Handed

/-- As many bytes as the range has positions. -/
theorem length_eq (h : window.Handed content span) : content.length = span.length := by
  rw [← h.content_eq, List.length_drop, List.length_take, min_eq_left h.given]
  rfl

/-- They are bytes of the input. -/
theorem content_eq_extract (h : window.Handed content span) (shows : window.Shows input) :
    content = (input.extract span.start span.stop).toList := by
  have given : span.stop ≤ window.source.given := by
    rw [← shows.buffered_eq, ← shows.length_delivered]
    exact h.given
  rw [← h.content_eq, Source.delivered, List.take_take, min_eq_left given, shows.bytes_eq,
    Array.toList_extract, List.extract_eq_take_drop, ← List.drop_take]

/-- **No operation takes back what was handed out**, since none takes back what
the source has given. -/
theorem perform (h : window.Handed content span) (shows : window.Shows input)
    {operation : Operation} {outcome : Except Fault operation.Result}
    (e : operation.perform window = some (outcome, window')) : window'.Handed content span := by
  have more := shows.delivered_perform e
  refine ⟨h.ordered, h.given.trans more.length_le, ?_⟩
  obtain ⟨gained, eq⟩ := more
  rw [← eq, List.take_append_of_le_length h.given]
  exact h.content_eq

/-- Nor do any number of them. -/
theorem after (h : window.Handed content span) (shows : window.Shows input)
    (operations : List Operation) : (window.after operations).Handed content span := by
  induction operations generalizing window with
  | nil => exact h
  | cons operation operations ih =>
    rw [Window.after]
    split
    case h_1 => exact h
    case h_2 performed => exact ih (h.perform shows performed) (shows.proceeds performed).shows

/-- **Looked at, the range has its bytes or is stale**, and the floor decides. There
is always an answer, since the range is in order. -/
theorem resolve?_eq (h : window.Handed content span) (shows : window.Shows input) :
    window.resolve? span = some (if span.start < window.floor
      then .error (.access (.stale span.start window.floor)) else .ok content) := by
  have ordered := h.ordered
  have buffered : span.stop ≤ window.buffered := shows.length_delivered ▸ h.given
  rw [Window.resolve?_eq]
  split_ifs with released below inside
  · rfl
  · omega
  · rw [shows.between_eq_delivered (Nat.not_lt.1 released) ordered h.given, h.content_eq]
  · exact absurd ⟨ordered, buffered⟩ inside

end Handed

/-- What more operations come to is what they come to in the end, or was there
before: one of the first that has no outcome is the last of all. -/
theorem after_append (operations more : List Operation) (window : Window) :
    window.after (operations ++ more) = (window.after operations).after more
      ∨ window.after (operations ++ more) = window.after operations := by
  induction operations generalizing window with
  | nil => exact .inl rfl
  | cons operation operations ih =>
    rw [List.cons_append, after, after]
    split
    · exact .inr rfl
    · exact ih _

/-- **More operations do not lower the floor.** -/
theorem Shows.floor_after_append (h : window.Shows input) (operations more : List Operation) :
    (window.after operations).floor ≤ (window.after (operations ++ more)).floor := by
  rcases window.after_append operations more with eq | eq <;> rw [eq]
  exact ((h.after operations).shows.after more).floor_le

/-- **A range is worth its bytes until they are released.** It is handed out by a
window of which anything was asked before, over a source that answers as it
likes. Then it can be looked at after any more operations, whatever came of them:
there are the bytes that the source has at these positions, the same as when the
range was handed out, as long as the floor has not passed the beginning of the
range. When it has, the range is stale, and it is stale from then on. -/
theorem redeemed_after (input : Array UInt8) (script : List Reply) (sizing : Sizing)
    (earlier : List Operation) {start stop : Nat} {span : Span} {window : Window}
    (handed : ((ofSource { bytes := input, script } sizing).after earlier).range start stop
      = (.ok span, window)) :
    ∃ content, window.resolve? span = some (.ok content)
      ∧ content = (input.extract start stop).toList ∧ content.length = span.length
      ∧ ∀ later, ((window.after later).resolve? span
            = some (if start < (window.after later).floor
              then .error (.access (.stale start (window.after later).floor)) else .ok content))
          ∧ (start < (window.after later).floor → ∀ further,
            (window.after (later ++ further)).resolve? span
              = some (.error (.access (.stale start (window.after (later ++ further)).floor)))) := by
  have begun : (ofSource { bytes := input, script } sizing).Shows input := .ofSource script sizing
  obtain ⟨rfl, fresh, shows, given⟩ := (begun.after earlier).shows.handed handed
  have redeemed : ∀ later, (window.after later).resolve? ⟨start, stop⟩
      = some (if start < (window.after later).floor
        then .error (.access (.stale start (window.after later).floor)) else .ok _) :=
    fun later => (given.after shows later).resolve?_eq (shows.after later).shows
  refine ⟨_, ?_, given.content_eq_extract shows, given.length_eq, fun later => ⟨redeemed later, ?_⟩⟩
  · exact (redeemed []).trans (congrArg some (if_neg (Nat.not_lt.2 fresh)))
  · intro stale further
    rw [redeemed, if_pos (stale.trans_le (shows.floor_after_append later further))]

/-- A source that gives two bytes at first, is interrupted, gives fewer than it is
asked for, and fails once. -/
def haltingSource : Source where
  bytes := bytesOf "0123456789"
  script := [.give 4, .fail .interruption, .give 2, .give 1, .give 1, .fail .brokenPipe]

/-- A range of it that is looked at when the source has failed and the bytes before
the range have been released, and again when the window has gone further. -/
theorem redeemed_after_haltingSource :
    let before := (ofSource haltingSource { initialCapacity := 0, step := 2 }).after [.byteAt 1]
    let window := (before.range 3 6).2
    (before.range 3 6).1 = .ok ⟨3, 6⟩
      ∧ (window.ensure 9).1 = .error (.source .brokenPipe)
      ∧ (window.after [.ensure 9, .discardBefore 3]).floor = 3
      ∧ (window.after [.ensure 9, .discardBefore 3]).resolve? ⟨3, 6⟩
          = some (.ok [ascii '3', ascii '4', ascii '5'])
      ∧ (window.after [.ensure 9, .discardBefore 3, .discardBefore 8]).resolve? ⟨3, 6⟩
          = some (.error (.access (.stale 3 8))) := by
  have handed : (((ofSource haltingSource { initialCapacity := 0, step := 2 }).after
      [.byteAt 1]).range 3 6).1 = .ok ⟨3, 6⟩ := by cbv
  obtain ⟨content, -, rfl, -, later⟩ := redeemed_after _ _ _ [.byteAt 1] (Prod.ext handed rfl)
  exact ⟨handed, by cbv, by cbv, (later [.ensure 9, .discardBefore 3]).1.trans (by cbv),
    (later [.ensure 9, .discardBefore 3, .discardBefore 8]).1.trans (by cbv)⟩

end Window

end TableDump
