import Mathlib
import TableDump.Proofs.Following
import TableDump.Proofs.Lexemes

/-!
# Numbers are exact, or they are refused

A number is the longest run of digits, with a fraction if a point and a digit
follow. All of this is decided before the literal is looked at as a number, so
how it is divided from what follows does not depend on its size, and a run of
digits that writes too large a number is refused as a whole, where it begins.

What bounds an integer is the number that its digits write and not how many
there are: zeros in front do not count. There is no third case between an
integer that is exact and a refusal. In particular no integer turns into a real
because it is large, since a real has a point among its digits.

A cursor over a source asks for the two bytes that may begin a fraction, and it
may have to wait for them, or may learn that the input ends there. It comes to the
same as in memory, where the bytes are at hand (`Scan.ComesTo`).
-/

namespace TableDump

open Grammar InMemory

variable {α : Type} {before input before' input' : Bytes}

/-! ## What a reading comes to, with cursors of both kinds -/

/-- **The outcome of a reading at some place, and where it leads.** -/
structure Scan.ComesTo (scan : Scan α) (before input : Bytes) (outcome : Except Fault α)
    (before' input' : Bytes) : Prop where
  /-- For the cursor in memory. -/
  inMemory : scan.run (between before input) = (outcome, between before' input')
  /-- For a cursor over a source, however that cuts its bytes into pieces. A source
  with failures other than interruptions may also make the reading fail. -/
  streaming : ∀ stream : Streaming, stream.Mirrors (between before input) →
    ((scan.run stream).1 = outcome ∧ (scan.run stream).2.Mirrors (between before' input'))
      ∨ ¬ stream.window.source.Reliable ∧ ∃ fault, (scan.run stream).1 = .error fault

/-- **A reading follows the one in memory**, so what it comes to there is what it
comes to. -/
theorem Scan.ComesTo.of_follows {settings : Settings} {scan : Scan α} {outcome : Except Fault α}
    (follows : ∀ stream : Streaming, stream.Mirrors (between before input) →
      Streaming.Follows (before ++ input).toArray settings stream (scan.run stream)
        (scan.run (between before input)))
    (ran : scan.run (between before input) = (outcome, between before' input')) :
    scan.ComesTo before input outcome before' input' := by
  refine ⟨ran, fun stream mirrors => ?_⟩
  have follows := follows stream mirrors
  rw [ran] at follows
  revert follows
  generalize scan.run stream = onStream
  rintro (⟨there, -⟩ | first | ⟨met, -⟩)
  · exact .inl ⟨rfl, there⟩
  · exact .inr ⟨fun reliable => by simp [Source.reliable_iff.1 reliable] at first, _, rfl⟩
  · exact .inr ⟨met ∘ Source.reliable_iff.1, _, rfl⟩

namespace Settings

variable {byte : UInt8}

/-- For a token that is no group it is enough to look at the cursor in memory. -/
theorem comesTo_scanSimple (settings : Settings) {outcome : Except Fault Token}
    (ran : (settings.scanSimple byte).run (between before input)
      = (outcome, between before' input')) :
    (settings.scanSimple byte).ComesTo before input outcome before' input' :=
  .of_follows (fun _ mirrors =>
    (Streaming.compositional_follows settings).scanSimple byte mirrors) ran

/-! ## Runs of digits -/

variable {digits rest : Bytes}

/-- An integer is the number that its digits write. -/
theorem toInt_ofNat_value (fits : value digits ≤ 2 ^ 63 - 1) :
    (Int64.ofNat (value digits)).toInt = value digits :=
  Int64.toInt_ofNat_of_lt (by omega)

/-- **Digits that write a number of 64 bits are that number.** -/
theorem comesTo_integer (settings : Settings) (head : digits.head? = some byte)
    (h : Digits digits) (ends : Ends IsDigit rest) (whole : ¬ StartsFraction rest)
    (fits : value digits ≤ 2 ^ 63 - 1) :
    (settings.scanSimple byte).ComesTo before (digits ++ rest)
      (.ok (.integer (Int64.ofNat (value digits)))) (before ++ digits) rest :=
  settings.comesTo_scanSimple
    (settings.run_scanSimple (.integer h ends whole (by omega)) head)

/-- **Digits that write a larger one are refused**, all of them and where they
begin. -/
theorem comesTo_invalidNumber (settings : Settings) (head : digits.head? = some byte)
    (h : Digits digits) (ends : Ends IsDigit rest) (whole : ¬ StartsFraction rest)
    (large : 2 ^ 63 - 1 < value digits) :
    (settings.scanSimple byte).ComesTo before (digits ++ rest)
      (.error (settings.faultAt (.invalidNumber (Utf8.decode digits)) before (digits ++ rest)))
      before (digits ++ rest) := by
  refine settings.comesTo_scanSimple ?_
  rw [settings.scanSimple_of_digit (h.bytes byte (List.mem_of_head? head)),
    settings.run_scanNumber h ends whole]
  exact settings.run_numeral_none (by rw [integer?_eq, if_neg (by omega)])

/-- **A real has been written as one.** -/
theorem exists_comesTo_real (settings : Settings) (head : input.head? = some byte)
    {number : Binary64}
    (ran : ((settings.scanSimple byte).run (between before input)).1 = .ok (.real number)) :
    ∃ whole fraction rest, input = whole ++ ascii '.' :: fraction ++ rest
      ∧ Digits whole ∧ Digits fraction ∧ Ends IsDigit rest
      ∧ (settings.scanSimple byte).ComesTo before input (.ok (.real number))
          (before ++ (whole ++ ascii '.' :: fraction)) rest := by
  obtain ⟨source, rest, rfl, lexeme, there⟩ :=
    (settings.recognizes_scanSimple head (.real number) _).1 (Prod.ext ran rfl)
  have comes := settings.comesTo_scanSimple (Prod.ext ran there)
  cases lexeme with
  | real hwhole hfraction ends nearest =>
    exact ⟨_, _, rest, rfl, hwhole, hfraction, ends, comes⟩

/-- **Numbers are exact, or they are refused.** Where a token begins with `byte`, let
there be a run of digits, of any length and with any number of zeros in front, which
another byte or the end of the input ends, and no fraction. Then the token is the
integer that the digits write, and the reading goes on behind them; or this is more
than 2⁶³ - 1, and the digits are the literal of a fault, which leaves the cursor
where it is. And a real is only read from digits, a point and digits, of which it
takes all that there are. -/
theorem scanSimple_exact (settings : Settings) (before : Bytes) {byte : UInt8} {input : Bytes}
    (head : input.head? = some byte) :
    (∀ digits rest, input = digits ++ rest → Digits digits → Ends IsDigit rest →
        ¬ StartsFraction rest →
        (value digits ≤ 2 ^ 63 - 1 → ∃ number : Int64, number.toInt = value digits
            ∧ (settings.scanSimple byte).ComesTo before input (.ok (.integer number))
                (before ++ digits) rest)
          ∧ (2 ^ 63 - 1 < value digits → ∃ literal : String,
              Utf8.encode literal.toList = digits
              ∧ (settings.scanSimple byte).ComesTo before input
                  (.error (settings.faultAt (.invalidNumber literal) before input)) before input))
      ∧ ∀ number : Binary64,
          (((settings.scanSimple byte).run (between before input)).1 = .ok (.real number)
            ∨ ∃ stream : Streaming, stream.Mirrors (between before input)
              ∧ ((settings.scanSimple byte).run stream).1 = .ok (.real number)) →
          ∃ whole fraction rest, input = whole ++ ascii '.' :: fraction ++ rest
            ∧ Digits whole ∧ Digits fraction ∧ Ends IsDigit rest
            ∧ (settings.scanSimple byte).ComesTo before input (.ok (.real number))
                (before ++ (whole ++ ascii '.' :: fraction)) rest := by
  constructor
  · rintro digits rest rfl h ends whole
    have first : digits.head? = some byte := by
      rwa [List.head?_append_of_ne_nil _ h.ne_nil] at head
    constructor
    · intro fits
      exact ⟨_, toInt_ofNat_value fits, settings.comesTo_integer first h ends whole fits⟩
    · intro large
      exact ⟨_, h.encode_decode, settings.comesTo_invalidNumber first h ends whole large⟩
  · rintro number (ran | ⟨stream, mirrors, ran⟩)
    · exact settings.exists_comesTo_real head ran
    · have follows := (Streaming.compositional_follows settings).scanSimple byte mirrors
      exact settings.exists_comesTo_real head (follows.eq_ok ran)

/-- An integer at the bound, with zeros in front; one behind it, before a point that begins
no fraction; and a real, before another point. -/
theorem scanSimple_exact_bound :
    (Settings.scanSimple {} (ascii '0')).ComesTo (bytesOf "(").toList
        (bytesOf "0009223372036854775807)").toList (.ok (.integer 9223372036854775807))
        (bytesOf "(0009223372036854775807").toList [ascii ')']
      ∧ (Settings.scanSimple {} (ascii '9')).ComesTo [] (bytesOf "9223372036854775808.").toList
          (.error (.malformed (.invalidNumber "9223372036854775808")
            { offset := 0, excerpt := "9223372036854775808." }))
          [] (bytesOf "9223372036854775808.").toList
      ∧ ∃ whole fraction rest, (bytesOf "1.50.2").toList = whole ++ ascii '.' :: fraction ++ rest
          ∧ Digits whole ∧ Digits fraction ∧ Ends IsDigit rest
          ∧ (Settings.scanSimple {} (ascii '1')).ComesTo [] (bytesOf "1.50.2").toList
              (.ok (.real ⟨0x3FF8000000000000⟩)) (whole ++ ascii '.' :: fraction) rest := by
  refine ⟨?_, ?_, ?_⟩
  · have large : value (bytesOf "0009223372036854775807").toList = 2 ^ 63 - 1 := by cbv
    obtain ⟨number, exact, comes⟩ := ((scanSimple_exact {} (bytesOf "(").toList rfl).1
      (bytesOf "0009223372036854775807").toList [ascii ')'] (by cbv)
      ⟨by decide +kernel, by decide +kernel⟩ (by rintro _ ⟨⟩; decide)
      (by simp [StartsFraction])).1 large.le
    obtain rfl : number = 9223372036854775807 := by
      rw [← Int64.toInt_inj, exact, large]
      decide
    exact comes
  · have large : 2 ^ 63 - 1 < value (bytesOf "9223372036854775808").toList := by cbv
    have split : (bytesOf "9223372036854775808.").toList
        = (bytesOf "9223372036854775808").toList ++ [ascii '.'] := by cbv
    obtain ⟨literal, written, comes⟩ := ((scanSimple_exact {} [] rfl).1 _ _ split
      ⟨by decide +kernel, by decide +kernel⟩ (by rintro _ ⟨⟩; decide)
      (by simp [StartsFraction])).2 large
    obtain rfl : literal = "9223372036854775808" := by
      rw [← @String.ofList_toList literal, ← Utf8.decode_encode, written, Utf8.toList_bytesOf,
        Utf8.decode_encode, String.ofList_toList]
    have fault : Settings.faultAt {} (.invalidNumber "9223372036854775808") []
        (bytesOf "9223372036854775808.").toList
        = .malformed (.invalidNumber "9223372036854775808")
            { offset := 0, excerpt := "9223372036854775808." } := by cbv
    rwa [fault] at comes
  · have nearest : Binary64.ofDecimal? ⟨value [ascii '1', ascii '5', ascii '0'], -2⟩
        = some ⟨0x3FF8000000000000⟩ := by decide +kernel
    have read := @Lexeme.real [ascii '1'] [ascii '5', ascii '0'] [ascii '.', ascii '2'] _
      ⟨by simp, by decide +kernel⟩ ⟨by simp, by decide +kernel⟩
      (by rintro _ ⟨⟩; decide) nearest
    have split : (bytesOf "1.50.2").toList
        = [ascii '1'] ++ ascii '.' :: [ascii '5', ascii '0'] ++ [ascii '.', ascii '2'] := by cbv
    refine (scanSimple_exact {} [] rfl).2 _ (.inl ?_)
    rw [split, Settings.run_scanSimple {} read rfl]

end Settings

end TableDump
