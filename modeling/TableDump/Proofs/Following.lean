import Mathlib
import TableDump.Proofs.InMemory
import TableDump.Proofs.Streaming

/-!
# Reading as far as the source allows

A failure of the source ends a reading, in one of two ways. A question that
cannot be answered is the fault, in the source's own words. But the excerpt that
goes with a fault of another kind is no question that could fail: it shows what
can be had, and the fault stays the one that it is.

So a reading over a source follows the reading of its bytes in memory to the
first failure, at most (`Streaming.Follows`). That goes by the parts of a
reading, and so it holds of the reading of statements.
-/

namespace TableDump

variable {α : Type}

/-! ## Faults with less of an excerpt -/

/-- **Causes of the same kind.** An unexpected character is named as the excerpt
shows it. -/
inductive Malformation.Alike : Malformation → Malformation → Prop where
  | same (cause : Malformation) : Alike cause cause
  | unexpectedCharacter (found found' : Char) :
      Alike (.unexpectedCharacter found) (.unexpectedCharacter found')

theorem Malformation.Alike.symm {cause cause' : Malformation} (h : cause.Alike cause') :
    cause'.Alike cause := by
  cases h with
  | same => exact .same cause
  | unexpectedCharacter found found' => exact .unexpectedCharacter found' found

theorem Malformation.Alike.trans {cause cause' cause'' : Malformation} (h : cause.Alike cause')
    (h' : cause'.Alike cause'') : cause.Alike cause'' := by
  cases h with
  | same => exact h'
  | unexpectedCharacter found =>
    cases h' with
    | same => exact .unexpectedCharacter found _
    | unexpectedCharacter _ found'' => exact .unexpectedCharacter found found''

/-- **A fault that shows less of the input**: another one of the same kind, at
the same place, shows up to `length` bytes, and this one the first of these. -/
inductive Fault.Shortens (bytes : Array UInt8) (length : Nat) : Fault → Fault → Prop where
  | intro {cause cause' : Malformation} {offset : Nat} {shown : Bytes}
      (alike : cause.Alike cause')
      (isPrefix : shown <+: (bytes.toList.drop offset).take length) :
      Shortens bytes length (.malformed cause { offset, excerpt := Utf8.decode shown })
        (.malformed cause'
          { offset, excerpt := Utf8.decode ((bytes.toList.drop offset).take length) })

namespace Streaming

variable {bytes : Array UInt8} {settings : Settings} {stream : Streaming} {memory : InMemory}

/-- **What a reading comes to on a cursor whose source may fail**, compared to
what it comes to in memory. -/
inductive Follows (bytes : Array UInt8) (settings : Settings) (stream : Streaming) :
    Except Fault α × Streaming → Except Fault α × InMemory → Prop
  /-- It comes to the same, and no failure was met. -/
  | same {outcome : Except Fault α} {stream' : Streaming} {memory' : InMemory}
      (mirrors : stream'.Mirrors memory')
      (calm : stream'.window.source.failures = stream.window.source.failures) :
      Follows bytes settings stream (outcome, stream') (outcome, memory')
  /-- It is stopped by the first failure. -/
  | failed {error : SourceError} {stream' : Streaming} {inMemory : Except Fault α × InMemory}
      (first : stream.window.source.failures.head? = some error) :
      Follows bytes settings stream (.error (.source error), stream') inMemory
  /-- It was over, and a failure has cut the excerpt short. -/
  | cut {fault fault' : Fault} {stream' : Streaming} {memory' : InMemory}
      (met : stream.window.source.failures ≠ [])
      (shortens : fault.Shortens bytes settings.excerptLength fault') :
      Follows bytes settings stream (.error fault, stream') (.error fault', memory')

/-! ## Readings that follow -/

namespace Follows

/-- What follows behind a part without a failure follows. -/
theorem of_calm {stream' : Streaming} {onStream : Except Fault α × Streaming}
    {inMemory : Except Fault α × InMemory}
    (calm : stream'.window.source.failures = stream.window.source.failures)
    (h : Follows bytes settings stream' onStream inMemory) :
    Follows bytes settings stream onStream inMemory := by
  cases h with
  | same mirrors calm' => exact .same mirrors (calm'.trans calm)
  | failed first => exact .failed (calm ▸ first)
  | cut met shortens => exact .cut (calm ▸ met) shortens

/-- **A failure that comes out is the first of those to come.** -/
theorem head?_eq {onStream : Except Fault α × Streaming} {inMemory : Except Fault α × InMemory}
    (h : Follows bytes settings stream onStream inMemory) {error : SourceError}
    (unfailing : inMemory.1 ≠ .error (.source error))
    (failed : onStream.1 = .error (.source error)) :
    stream.window.source.failures.head? = some error := by
  cases h with
  | same mirrors calm => exact absurd failed unfailing
  | failed first =>
    obtain rfl := Fault.source.inj (Except.error.inj failed)
    exact first
  | cut met shortens =>
    obtain rfl := Except.error.inj failed
    cases shortens

/-- **Success over a source is success in memory**, since a failure ends a reading. -/
theorem eq_ok {onStream : Except Fault α × Streaming} {inMemory : Except Fault α × InMemory}
    {value : α} (h : Follows bytes settings stream onStream inMemory)
    (ran : onStream.1 = .ok value) : inMemory.1 = .ok value := by
  cases h with
  | same mirrors calm => exact ran
  | failed first => exact absurd ran (by simp)
  | cut met shortens => exact absurd ran (by simp)

/-- A question that is answered as in memory, or fails, follows. -/
theorem of_agrees {onStream : Except Fault α × Streaming} {inMemory : Except Fault α × InMemory}
    (agrees : Agrees stream memory onStream inMemory)
    (meets : stream.window.source.Meets onStream.1 onStream.2.window.source)
    (unfailing : ∀ error, inMemory.1 ≠ .error (.source error)) :
    Follows bytes settings stream onStream inMemory := by
  cases agrees with
  | failed unreliable mirrors => exact .failed meets.head?_eq
  | @same outcome stream' memory' mirrors kept =>
    have none : raised outcome = none := by
      rcases outcome with (_ | _ | _ | error) | _
      case error.source => exact absurd rfl (unfailing error)
      all_goals rfl
    have calm : stream.window.source.failures
        = (raised outcome).toList ++ stream'.window.source.failures := meets
    rw [none] at calm
    exact .same mirrors calm.symm

end Follows

namespace Mirrors

theorem follows_skipRest (h : stream.Mirrors memory) :
    Follows bytes settings stream (Scan.skipRest.run stream) (Scan.skipRest.run memory) := by
  have meets := stream.meets_answer .skipRest nofun
  rw [Scan.skipRest, Scan.run_ask, Scan.run_ask]
  change Follows bytes settings stream (stream.answer .skipRest) (memory.answer .skipRest)
  revert meets
  rcases ran : stream.answer .skipRest with ⟨outcome, stream'⟩
  intro meets
  rcases h.skipRest ran with ⟨rfl, there, -⟩ | ⟨-, ⟨error, rfl⟩, -⟩
  · exact .same there (Eq.symm meets)
  · exact .failed meets.head?_eq

theorem follows_ask (h : stream.Mirrors memory) (query : Query) (sensible : query.Sensible)
    (shown : ∀ count, query ≠ .preview count) :
    Follows bytes settings stream ((Scan.ask query Scan.done).run stream)
      ((Scan.ask query Scan.done).run memory) := by
  by_cases skip : query = .skipRest
  · subst skip
    exact h.follows_skipRest
  · have unfailing := InMemory.unfailing_ask query memory
    rw [Scan.run_ask] at unfailing
    rw [Scan.run_ask, Scan.run_ask]
    exact .of_agrees (h.agrees query sensible skip shown) (stream.meets_answer query shown)
      unfailing

/-- **A reading that ends with a fault** at the place where it stands. -/
theorem follows_fault (h : stream.Mirrors memory) (settings : Settings)
    {scan : Scan α} (cause : Bytes → Malformation)
    (alike : ∀ shown ahead, (cause shown).Alike (cause ahead))
    (ends : ∀ {κ : Type} [Cursor κ] {cursor cursor' : κ} {ahead : Bytes},
      (Scan.preview settings.excerptLength).run cursor = (.ok ahead, cursor') →
      Cursor.position cursor' = Cursor.position cursor →
      scan.run cursor = (.error (.malformed (cause ahead)
        { offset := Cursor.position cursor, excerpt := Utf8.decode ahead }), cursor')) :
    Follows memory.bytes settings stream (scan.run stream) (scan.run memory) := by
  obtain ⟨shown, stream', ran, mirrors, isPrefix, kept, all⟩ := h.preview settings.excerptLength
  have here := ends ((Scan.run_ask _ stream).trans ran)
    (mirrors.position_eq.trans h.position_eq.symm)
  have inMemory := ends ((Scan.run_ask _ memory).trans (memory.answer_preview _)) rfl
  rw [here, inMemory, show Cursor.position stream = memory.position from h.position_eq]
  by_cases calm : stream'.window.source.failures = stream.window.source.failures
  · rw [all calm]
    exact .same mirrors calm
  · refine .cut (fun none => calm ?_) (.intro (alike _ _) isPrefix)
    rw [none, Source.reliable_iff.1 (kept (Source.reliable_iff.2 none))]

end Mirrors

/-- **Following goes by the parts of a reading.** -/
theorem compositional_follows (settings : Settings) :
    settings.Compositional fun scan => ∀ {stream : Streaming} {memory : InMemory},
      stream.Mirrors memory →
        Follows memory.bytes settings stream (scan.run stream) (scan.run memory) where
  pure value _ _ h := .same h rfl
  bind := by
    intro α β first next hfirst hnext stream memory h
    have follows := hfirst h
    have bytes_eq := memory.bytes_run first
    rw [Scan.run_bind, Scan.run_bind]
    generalize first.run stream = onStream at follows
    generalize first.run memory = inMemory at follows bytes_eq
    cases follows with
    | failed first => exact .failed first
    | cut met shortens => exact .cut met shortens
    | @same outcome stream' memory' mirrors calm =>
      cases outcome with
      | error fault => exact .same mirrors calm
      | ok value =>
        have behind := hnext value mirrors
        rw [show memory'.bytes = memory.bytes from bytes_eq] at behind
        exact behind.of_calm calm
  left := by
    intro stream memory h
    rw [Scan.run_left, Scan.run_left, show Cursor.left stream = Cursor.left memory from h.left_eq]
    exact .same h rfl
  ask query sensible shown _ _ h := h.follows_ask query sensible shown
  malformed cause _ _ h := by
    refine h.follows_fault settings (fun _ => cause) (fun _ _ => .same cause) ?_
    intro κ _ cursor cursor' ahead ran _
    rw [Settings.malformed, Scan.run_bind_ok (Scan.run_position cursor), Scan.run_bind_ok ran,
      Scan.run_fail]
  unexpected byte _ _ h := by
    refine h.follows_fault settings
      (fun ahead =>
        .unexpectedCharacter ((Utf8.decodeChars ahead).head?.getD (Char.ofNat byte.toNat)))
      (fun _ _ => .unexpectedCharacter _ _) ?_
    intro κ _ cursor cursor' ahead ran here
    rw [Settings.unexpected, Scan.run_bind_ok ran]
    dsimp only
    rw [Scan.run_bind_ok (Scan.run_position cursor'), Scan.run_fail, here]
    rfl

/-- **The reading of a statement follows** the one in memory. -/
theorem Mirrors.follows_scanStatement (h : stream.Mirrors memory) (settings : Settings) :
    Follows memory.bytes settings stream (settings.scanStatement.run stream)
      (settings.scanStatement.run memory) :=
  (compositional_follows settings).scanStatement h

end Streaming

end TableDump
