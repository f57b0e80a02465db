import Mathlib
import TableDump.Proofs.Course
import TableDump.Proofs.SameReading

/-!
# What stands behind a cursor makes no difference

A reading in memory looks at what is in front of the cursor and at nothing else. How
much there is behind the cursor it is told, but only says so in a fault. So with
more bytes behind the cursor any reading goes as it did, and where it ends with a
fault, the places in the fault are so much further from the start of the input
(`Fault.displaced`).

This goes by the parts of a reading (`Settings.compositional_displaces`), and holds
of single statements, of calls for statements, and of the course of a reading.
-/

namespace TableDump

open InMemory (between)

variable {α β : Type}

/-! ## Faults -/

/-- **A fault with more bytes in front of the input**: all places in it are so much
further from the start. -/
def Fault.displaced (count : Nat) : Fault → Fault
  | malformed cause place => .malformed cause { place with offset := count + place.offset }
  | access (.discarded position floor) => .access (.discarded (count + position) (count + floor))
  | access (.invalidRange start stop) => .access (.invalidRange (count + start) (count + stop))
  | access (.stale start floor) => .access (.stale (count + start) (count + floor))
  | shape fault => .shape fault
  | source error => .source error

/-! ## Readings -/

namespace Scan

/-- **Bytes that are put behind the cursor stay there**, and all that they change is
the places in a fault. -/
def Displaces (scan : Scan α) : Prop :=
  ∀ front before input : Bytes, ∃ (outcome : Except Fault α) (before' rest : Bytes),
    scan.run (between before input) = (outcome, between before' rest)
      ∧ scan.run (between (front ++ before) input)
        = (outcome.mapError (Fault.displaced front.length), between (front ++ before') rest)

/-- Where something stands first in front of the cursor does not depend on what is
behind. -/
theorem offset?_between_eq {search : Array UInt8 → Nat → Option Nat} {spot : Bytes → Prop}
    {width : Nat} (locates : Locates search spot width) (before before' input : Bytes)
    (start : Nat) :
    (between before input).offset?
        (search (between before input).bytes ((between before input).position + start))
      = (between before' input).offset?
        (search (between before' input).bytes ((between before' input).position + start)) := by
  by_cases somewhere : ∃ offset, start ≤ offset ∧ spot (input.drop offset)
  · obtain ⟨offset, le, stands⟩ := somewhere
    obtain ⟨first, isFirst⟩ := IsFirst.exists_of_spot le stands
    rw [offset?_between locates isFirst, offset?_between locates isFirst]
  · have nowhere : ∀ offset, start ≤ offset → ¬ spot (input.drop offset) :=
      fun offset le stands => somewhere ⟨offset, le, stands⟩
    rw [offset?_between_none locates nowhere, offset?_between_none locates nowhere]

namespace Displaces

theorem pure (value : α) : (Pure.pure value : Scan α).Displaces := by
  intro front before input
  exact ⟨.ok value, before, input, run_pure value _, run_pure value _⟩

/-- **A sequence does so if its parts do.** -/
theorem bind {first : Scan α} {next : α → Scan β} (hfirst : first.Displaces)
    (hnext : ∀ value, (next value).Displaces) : (first >>= next).Displaces := by
  intro front before input
  obtain ⟨outcome, before', rest, ran, ran'⟩ := hfirst front before input
  cases outcome with
  | error fault => exact ⟨.error fault, before', rest, run_bind_error ran, run_bind_error ran'⟩
  | ok value =>
    rw [run_bind_ok ran, run_bind_ok ran']
    exact hnext value front before' rest

/-- Going forward fails for want of bytes in front, and then says where. -/
theorem advance (count : Nat) : (Scan.advance count).Displaces := by
  intro front before input
  by_cases enough : count ≤ input.length
  · have split : input = input.take count ++ input.drop count :=
      (List.take_append_drop count input).symm
    have taken : (input.take count).length = count := List.length_take_of_le enough
    refine ⟨.ok (), before ++ input.take count, input.drop count,
      run_advance _ _ split taken, ?_⟩
    rw [← List.append_assoc]
    exact run_advance _ _ split taken
  · have failed : ∀ before : Bytes, (Scan.advance count).run (between before input)
        = (.error (.access (.invalidRange before.length (before.length + count))),
          between before input) := by
      intro before
      rw [Scan.advance, run_ask]
      show InMemory.answer (.advance count) (between before input) = _
      unfold InMemory.answer
      dsimp only
      rw [if_neg (by rwa [InMemory.remaining_between])]
      rfl
    refine ⟨_, before, input, failed before, ?_⟩
    rw [failed, List.length_append, Nat.add_assoc]
    rfl

/-- So does cutting out a piece. -/
theorem slice (start stop : Nat) : (Scan.slice start stop).Displaces := by
  intro front before input
  have answer_eq : ∀ before : Bytes, (Scan.slice start stop).run (between before input)
      = (if start ≤ stop ∧ stop ≤ input.length then .ok ((input.take stop).drop start)
          else .error (.access (.invalidRange (before.length + start) (before.length + stop))),
        between before input) := by
    intro before
    rw [Scan.slice, run_ask]
    show InMemory.answer (.slice start stop) (between before input) = _
    unfold InMemory.answer
    dsimp only
    rw [InMemory.remaining_between]
    split
    · exact congrArg (fun piece => (Except.ok piece, _)) (InMemory.extract_between start stop)
    · rfl
  refine ⟨_, before, input, answer_eq before, ?_⟩
  rw [answer_eq, List.length_append]
  split
  · rfl
  · rw [Nat.add_assoc, Nat.add_assoc]
    rfl

/-- **Any question does so**, if it searches for something. -/
theorem ask (query : Query) (sensible : query.Sensible) :
    (Scan.ask query Scan.done).Displaces := by
  cases query with
  | advance count => exact advance count
  | slice start stop => exact slice start stop
  | peek offset =>
    intro front before input
    exact ⟨.ok input[offset]?, before, input, run_peek offset, run_peek offset⟩
  | preview count =>
    intro front before input
    exact ⟨.ok (input.take count), before, input, run_preview count, run_preview count⟩
  | skipRest =>
    intro front before input
    refine ⟨.ok (), before ++ input, [], run_skipRest, ?_⟩
    rw [← List.append_assoc]
    exact run_skipRest
  | find needle start =>
    intro front before input
    refine ⟨_, before, input, run_ask _ _, (run_ask _ _).trans ?_⟩
    exact congrArg (fun found => (Except.ok found, between (front ++ before) input))
      (offset?_between_eq (locates_findBytes sensible) (front ++ before) before input start)
  | findEither a b start =>
    intro front before input
    refine ⟨_, before, input, run_ask _ _, (run_ask _ _).trans ?_⟩
    exact congrArg (fun found => (Except.ok found, between (front ++ before) input))
      (offset?_between_eq (locates_findEither a b) (front ++ before) before input start)

end Displaces

end Scan

namespace Settings

variable (settings : Settings)

/-- **That bytes behind the cursor make no difference goes by the parts of a
reading.** -/
theorem compositional_displaces : settings.Compositional fun scan => scan.Displaces where
  pure := Scan.Displaces.pure
  bind := Scan.Displaces.bind
  left front before input := by
    have ran : ∀ before : Bytes, Scan.left.run (between before input)
        = (.ok input.length, between before input) := by
      intro before
      rw [Scan.run_left, InMemory.left_between]
    exact ⟨.ok input.length, before, input, ran before, ran (front ++ before)⟩
  ask query sensible _ := .ask query sensible
  malformed {α} cause front before input := by
    have ran : ∀ before : Bytes, (settings.malformed cause : Scan α).run (between before input)
        = (.error (.malformed cause { offset := before.length,
                                      excerpt := Utf8.decode (input.take settings.excerptLength) }),
          between before input) := by
      intro before
      rw [malformed, Scan.run_bind_ok (Scan.run_position _),
        Scan.run_bind_ok (Scan.run_preview _), Scan.run_fail]
      rfl
    refine ⟨_, before, input, ran before, ?_⟩
    rw [ran, List.length_append]
    rfl
  unexpected {α} byte front before input := by
    let ahead := Utf8.decodeChars (input.take settings.excerptLength)
    have ran : ∀ before : Bytes, (settings.unexpected byte : Scan α).run (between before input)
        = (.error (.malformed (.unexpectedCharacter (ahead.head?.getD (Char.ofNat byte.toNat)))
            { offset := before.length, excerpt := String.ofList ahead }),
          between before input) := by
      intro before
      rw [unexpected, Scan.run_bind_ok (Scan.run_preview _)]
      dsimp only
      rw [Scan.run_bind_ok (Scan.run_position _), Scan.run_fail]
      rfl
    refine ⟨_, before, input, ran before, ?_⟩
    rw [ran, List.length_append]
    rfl

/-- **The reading of a statement** goes the same way wherever the cursor stands. -/
theorem displaces_scanStatement : settings.scanStatement.Displaces :=
  settings.compositional_displaces.scanStatement

end Settings

/-! ## Readers -/

namespace Reader

/-- What a call for a statement gives, and where it leaves the reader, with more
bytes in front of the input. -/
def displaced (count : Nat) (entry : Except Fault (Option Statement) × Nat) :
    Except Fault (Option Statement) × Nat :=
  (entry.1.mapError (Fault.displaced count), count + entry.2)

variable (settings : Settings) (front : Bytes)

/-- **The calls for statements** give the same with more bytes behind the cursor. -/
theorem transcript_displaced (count : Nat) : ∀ (before input : Bytes) (counted counted' : Nat)
    (finished : Bool),
    transcript count { cursor := between (front ++ before) input, settings,
                       statements := counted, finished }
      = (transcript count { cursor := between before input, settings,
                            statements := counted', finished }).map (displaced front.length) := by
  induction count with
  | zero => exact fun _ _ _ _ _ => rfl
  | succ count ih =>
    intro before input counted counted' finished
    have place : ∀ before rest : Bytes, (between (front ++ before) rest).position
        = front.length + (between before rest).position := fun _ _ => List.length_append
    rw [transcript, transcript, List.map_cons]
    cases finished with
    | true => exact congrArg₂ _ (Prod.ext rfl (place before input)) (ih before input _ _ true)
    | false =>
      obtain ⟨outcome, before', rest, ran, ran'⟩ :=
        settings.displaces_scanStatement front before input
      unfold next
      dsimp only
      rw [if_neg Bool.false_ne_true, if_neg Bool.false_ne_true, ran, ran']
      rcases outcome with fault | _ | statement
      · exact congrArg₂ _ (Prod.ext rfl (place before' rest)) (ih before' rest _ _ true)
      · exact congrArg₂ _ (Prod.ext rfl (place before' rest)) (ih before' rest _ _ true)
      · exact congrArg₂ _ (Prod.ext rfl (place before' rest)) (ih before' rest _ _ false)

/-- **So does the course of a reading.** -/
theorem Course.displaced {settings : Settings} {before input : Bytes} {counted : Nat}
    {statements : List Statement} {ending : Except Fault Unit}
    (course : Course { cursor := between before input, settings, statements := counted }
      statements ending) (front : Bytes) (counted' : Nat) :
    Course { cursor := between (front ++ before) input, settings, statements := counted' }
      statements (ending.mapError (Fault.displaced front.length)) := by
  obtain ⟨outcome, cursor, ran, begins⟩ := course.exists_run
  obtain ⟨_, before', rest, ran', displaced⟩ :=
    settings.displaces_scanStatement front before input
  obtain ⟨rfl, rfl⟩ := Prod.mk.inj (ran.symm.trans ran')
  rcases outcome with fault | _ | statement
  · obtain ⟨rfl, rfl⟩ := begins
    exact .of_failed displaced
  · obtain ⟨rfl, rfl⟩ := begins
    exact .of_ended displaced
  · obtain ⟨others, rfl, further⟩ := begins
    exact .of_read displaced (further.displaced front (counted' + 1))
termination_by statements.length

end Reader

end TableDump
