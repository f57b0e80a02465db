import Mathlib
import TableDump.Proofs.Scan
import TableDump.Token.Scan

/-!
# What reading asks

The reading of a statement is put together from single questions by sequence
and by choice. So whatever holds of the questions, and of a sequence if it
holds of its parts, holds of the reading of statements
(`Settings.Compositional`). One walk over the rules for tokens, in
`Compositional.scanStatement`, serves all such properties.

What ends a reading with a fault is not taken apart there. It shows some of the
input, and how much of it can be had is a question apart from all others.

No reading searches for nothing: the needles are a line feed, the end of a
comment and a backtick. So all the questions of the reading of statements are
sensible ones, which is what lets a cursor over a source answer them like one in
memory.
-/

namespace TableDump

open Query (Sensible)

namespace Settings

/-- **A property of readings that goes by their parts.** -/
structure Compositional (settings : Settings) (holds : ∀ {α : Type}, Scan α → Prop) : Prop where
  pure : ∀ {α : Type} (value : α), holds (pure value : Scan α)
  bind : ∀ {α β : Type} {first : Scan α} {next : α → Scan β}, holds first →
    (∀ value, holds (next value)) → holds (first >>= next)
  left : holds Scan.left
  /-- A question, except for the one that shows what comes next. -/
  ask : ∀ query : Query, query.Sensible → (∀ count, query ≠ .preview count) →
    holds (Scan.ask query Scan.done)
  malformed : ∀ {α : Type} (cause : Malformation), holds (settings.malformed cause : Scan α)
  unexpected : ∀ {α : Type} (byte : UInt8), holds (settings.unexpected byte : Scan α)

namespace Compositional

variable {settings : Settings} {holds : ∀ {α : Type}, Scan α → Prop}

section

variable (h : settings.Compositional holds)
include h

/-! ## Questions -/

theorem peek (offset : Nat) : holds (Scan.peek offset) := h.ask _ trivial nofun

theorem advance (count : Nat) : holds (Scan.advance count) := h.ask _ trivial nofun

theorem slice (start stop : Nat) : holds (Scan.slice start stop) := h.ask _ trivial nofun

theorem find (byte : UInt8) (rest : Bytes) (start : Nat) :
    holds (Scan.find (byte :: rest) start) :=
  h.ask _ (List.cons_ne_nil byte rest) nofun

theorem findEither (a b : UInt8) (start : Nat) : holds (Scan.findEither a b start) :=
  h.ask _ trivial nofun

theorem skipRest : holds Scan.skipRest := h.ask _ trivial nofun

theorem atEnd : holds Scan.atEnd := h.bind (h.peek 0) fun _ => h.pure _

theorem spanFrom (member : UInt8 → Bool) (start fuel : Nat) :
    holds (Scan.spanFrom member start fuel) := by
  induction fuel generalizing start with
  | zero => exact h.pure start
  | succ fuel ih =>
    rw [Scan.spanFrom]
    refine h.bind (h.peek start) fun byte => ?_
    split
    · exact h.pure start
    · split
      · exact ih (start + 1)
      · exact h.pure start

theorem spanEnd (member : UInt8 → Bool) (start : Nat) : holds (Scan.spanEnd member start) :=
  h.bind h.left fun _ => h.spanFrom member start _

/-! ## Between tokens -/

theorem skipComment : holds settings.skipComment := by
  unfold Settings.skipComment
  refine h.bind (h.peek 0) fun first => h.bind (h.peek 1) fun second => ?_
  split
  · refine h.bind (h.find _ _ _) fun stop => ?_
    dsimp only
    split
    · exact h.bind (h.advance _) fun _ => h.pure _
    · exact h.bind h.skipRest fun _ => h.pure _
  · split
    · refine h.bind (h.find _ _ _) fun stop => ?_
      dsimp only
      split
      · exact h.bind (h.advance _) fun _ => h.pure _
      · exact h.bind (h.malformed _) fun _ => h.pure _
    · exact h.pure _

theorem skipBlanksWithin (fuel : Nat) : holds (settings.skipBlanksWithin fuel) := by
  induction fuel with
  | zero => exact h.pure ()
  | succ fuel ih =>
    rw [Settings.skipBlanksWithin]
    have further : holds (settings.skipComment >>= fun skipped =>
        if skipped then settings.skipBlanksWithin fuel else Pure.pure ()) := by
      refine h.bind h.skipComment fun skipped => ?_
      cases skipped
      · exact h.pure ()
      · exact ih
    refine h.bind (h.spanEnd _ _) fun blanks => ?_
    dsimp only
    split
    · exact h.bind (h.advance _) fun _ => further
    · exact further

theorem skipBlanks : holds settings.skipBlanks := h.bind h.left fun _ => h.skipBlanksWithin _

/-! ## Tokens -/

theorem scanWord : holds Settings.scanWord :=
  h.bind (h.spanEnd _ _) fun _ => h.bind (h.slice _ _) fun _ =>
    h.bind (h.advance _) fun _ => h.pure _

theorem numeral (value? : Bytes → Option Token) (stop : Nat) :
    holds (settings.numeral value? stop) := by
  refine h.bind (h.slice _ _) fun literal => ?_
  split
  · exact h.bind (h.advance _) fun _ => h.pure _
  · exact h.malformed _

theorem fractionAt (start : Nat) : holds (Settings.fractionAt start) := by
  refine h.bind (h.peek _) fun point => ?_
  split
  · exact h.bind (h.peek _) fun _ => h.pure _
  · exact h.pure _

theorem scanNumber : holds settings.scanNumber := by
  refine h.bind (h.spanEnd _ _) fun whole => h.bind (h.fractionAt _) fun fraction => ?_
  split
  · exact h.bind (h.spanEnd _ _) fun _ => h.numeral _ _
  · exact h.numeral _ _

theorem quotedFrom (quote : UInt8) (fuel start : Nat) (before : Bytes) :
    holds (settings.quotedFrom quote fuel start before) := by
  induction fuel generalizing start before with
  | zero => exact h.malformed _
  | succ fuel ih =>
    rw [Settings.quotedFrom]
    refine h.bind (h.findEither _ _ _) fun mark => ?_
    split
    · exact h.malformed _
    · refine h.bind (h.slice _ _) fun plain => h.bind (h.peek _) fun byte => ?_
      split
      · exact h.bind (h.advance _) fun _ => h.pure _
      · refine h.bind (h.peek _) fun escaped => ?_
        split
        · exact h.malformed _
        · exact ih _ _

theorem scanText (quote : UInt8) : holds (settings.scanText quote) :=
  h.bind h.left fun _ => h.bind (h.quotedFrom _ _ _ _) fun _ => h.pure _

theorem scanName : holds settings.scanName := by
  refine h.bind (h.find _ _ _) fun stop => ?_
  split
  · exact h.malformed _
  · exact h.bind (h.slice _ _) fun _ => h.bind (h.advance _) fun _ => h.pure _

theorem scanDelimiter (delimiter : Delimiter) : holds (Settings.scanDelimiter delimiter) :=
  h.bind (h.advance _) fun _ => h.pure _

theorem scanSimple (byte : UInt8) : holds (settings.scanSimple byte) := by
  unfold Settings.scanSimple
  split_ifs
  · exact h.scanWord
  · exact h.scanNumber
  · exact h.scanText _
  · exact h.scanName
  · exact h.scanDelimiter _
  · exact h.scanDelimiter _
  · exact h.scanDelimiter _
  · exact h.unexpected _

/-! ## Lists of tokens -/

theorem scanGroup (depth : Nat) {inside : Scan (List Token)} (hinside : holds inside) :
    holds (settings.scanGroup depth inside) := by
  unfold Settings.scanGroup
  split
  · exact h.malformed _
  · exact h.bind (h.advance _) fun _ => h.bind h.skipBlanks fun _ =>
      h.bind hinside fun _ => h.pure _

theorem tokensWithin (fuel depth : Nat) (before : List Token) :
    holds (settings.tokensWithin fuel depth before) := by
  induction fuel generalizing depth before with
  | zero => exact h.pure _
  | succ fuel ih =>
    rw [Settings.tokensWithin]
    refine h.bind (h.peek _) fun byte => ?_
    split
    · split
      · exact h.pure _
      · exact h.malformed _
    · split
      · exact h.bind (h.advance _) fun _ => h.pure _
      · have further : ∀ token, holds (settings.skipBlanks >>= fun _ =>
            settings.tokensWithin fuel depth (token :: before)) :=
          fun token => h.bind h.skipBlanks fun _ => ih _ _
        dsimp only
        split
        · exact h.bind (h.scanGroup _ (ih _ _)) further
        · exact h.bind (h.scanSimple _) further

/-- **What goes by the parts of a reading holds of the reading of a
statement.** -/
theorem scanStatement : holds settings.scanStatement := by
  unfold Settings.scanStatement
  refine h.bind h.skipBlanks fun _ => h.bind h.atEnd fun ended => ?_
  split
  · exact h.pure _
  · exact h.bind h.left fun _ => h.bind (h.tokensWithin _ _ _) fun _ => h.pure _

end

/-- To ask sensible questions only goes by the parts. -/
theorem asks (settings : Settings) :
    settings.Compositional fun scan => scan.Asks Sensible where
  pure := Scan.asks_pure
  bind := Scan.asks_bind
  left := Scan.asks_left
  ask _ sensible _ := Scan.asks_ask sensible
  malformed _ := Scan.asks_bind Scan.asks_position fun _ =>
    Scan.asks_bind (Scan.asks_ask trivial) fun _ => Scan.asks_fail _
  unexpected _ := Scan.asks_bind (Scan.asks_ask trivial) fun _ =>
    Scan.asks_bind Scan.asks_position fun _ => Scan.asks_fail _

end Compositional

/-- **The reading of a statement asks sensible questions only.** -/
theorem asks_scanStatement (settings : Settings) : settings.scanStatement.Asks Sensible :=
  (Compositional.asks settings).scanStatement

end Settings

end TableDump
