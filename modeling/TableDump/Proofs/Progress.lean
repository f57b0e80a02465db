import Mathlib
import TableDump.Proofs.Footing
import TableDump.Proofs.RoundTrip

/-!
# How far the rules for tokens look

One law for each rule by which tokens are read: from a place where it begins, the
rule comes to a later one, it has looked no further ahead than it says, and what
it has made of the bytes is a token that has a canonical text.

The reach is what has to be counted with care. Between tokens it is one byte: the
second one of what might be a comment, or the one behind a point that might be a
digit of the number before it. A rule that goes over what it has looked at gives
its reach back. So at the end of a list of tokens, where the closing mark is gone
over, nothing has been looked at behind it (`Footing.tokensWithin`).

What is made is a matter of the bytes only for names. No backtick comes into a
word, whose bytes are looked at one by one, nor into a quoted name, which ends at
the first of them; and decoding brings in none.
-/

namespace TableDump

open Grammar (Simple)

/-! ## Numbers -/

namespace Binary64

/-- The number of a magnitude that is not that of a sign. -/
theorem toNat_ofMagnitude {magnitude : Nat} (h : magnitude < signPlace) :
    (ofMagnitude false magnitude).bits.toNat = magnitude := by
  unfold ofMagnitude
  rw [if_neg Bool.false_ne_true, Nat.add_zero]
  exact UInt64.toNat_ofNat_of_lt' (h.trans (by decide))

/-- **A decimal number is read as a finite number without a sign**, or not at
all. -/
theorem isFinite_of_ofDecimal? {decimal : Decimal} {number : Binary64}
    (h : ofDecimal? decimal = some number) :
    number.isNegative = false ∧ number.isFinite = true := by
  unfold ofDecimal? at h
  generalize nearestDecimal decimal = magnitude at h
  dsimp only at h
  split at h
  case isFalse => simp at h
  case isTrue small =>
    obtain rfl := Option.some.inj h
    have unsigned : magnitude < signPlace := small.trans (by decide)
    constructor
    · unfold isNegative
      rw [toNat_ofMagnitude unsigned]
      exact decide_eq_false (Nat.not_le.2 unsigned)
    · unfold isFinite
      rw [Binary64.magnitude, toNat_ofMagnitude unsigned, Nat.mod_eq_of_lt unsigned]
      exact decide_eq_true small

end Binary64

namespace Settings

/-- What a run of digits makes has a canonical text. -/
theorem simple_of_integer? {digits : Bytes} {token : Token} (h : integer? digits = some token) :
    Simple token := by
  unfold integer? at h
  split at h
  case isFalse => simp at h
  case isTrue small =>
    obtain rfl := Option.some.inj h
    refine .integer ?_
    rw [Int64.le_iff_toInt_le, Int64.toInt_ofNat_of_lt small]
    exact Int.natCast_nonneg _

/-- What two runs of digits make has one. -/
theorem simple_of_real? {literal : Bytes} {token : Token} (h : real? literal = some token) :
    Simple token := by
  obtain ⟨number, read, rfl⟩ := Option.map_eq_some_iff.1 h
  obtain ⟨positive, finite⟩ := Binary64.isFinite_of_ofDecimal? read
  exact .real positive finite

end Settings

/-- A byte of a piece is one of the input. -/
theorem exists_index_of_mem_slice {bytes : Array UInt8} {first last : Nat} {byte : UInt8}
    (h : byte ∈ (bytes.toList.take last).drop first) :
    ∃ index, first ≤ index ∧ index < last ∧ bytes[index]? = some byte := by
  obtain ⟨offset, found⟩ := List.mem_iff_getElem?.1 h
  rw [List.getElem?_drop] at found
  have inside : first + offset < last := by
    have := (List.getElem?_eq_some_iff.1 found).1
    rw [List.length_take] at this
    omega
  rw [List.getElem?_take_of_lt inside, Array.getElem?_toList] at found
  exact ⟨first + offset, Nat.le_add_right _ _, inside, found⟩

/-- A text has no backtick if its bytes have none. -/
theorem backtick_notMem_decode {piece : Bytes} (h : ascii '\x60' ∉ piece) :
    backtick ∉ (Utf8.decode piece).toList :=
  fun mem => h (Utf8.ascii_mem_of_mem_decode (by decide) (by decide) mem)

namespace Footing

variable {κ : Type} [Cursor κ] {bytes : Array UInt8} {stands : (place reach : Nat) → κ → Prop}
  {place reach : Nat}

section

variable (h : Footing bytes stands)
include h

/-! ## Questions -/

theorem peek (offset : Nat) :
    (Scan.peek offset).Arrives stands place reach ((Query.peek offset).Tells bytes place reach) :=
  h.answer (.peek offset) trivial _ _

/-- Looking at a byte, whether or not there is one. -/
theorem look (offset : Nat) :
    (Scan.peek offset).Arrives stands place reach fun found place' reach' =>
      place' = place ∧ reach' ≤ max reach offset
        ∧ ∀ byte, found = some byte → bytes[place + offset]? = some byte := by
  refine (h.peek offset).mono ?_
  rintro (_ | byte) place' reach' ⟨here, told⟩
  · exact ⟨here, told.trans (le_max_right _ _), nofun⟩
  · refine ⟨here, told.1, ?_⟩
    rintro _ ⟨⟩
    exact told.2

theorem advance (count : Nat) :
    (Scan.advance count).Arrives stands place reach fun _ place' reach' =>
      place' = place + count ∧ reach' ≤ reach - count :=
  h.answer (.advance count) trivial _ _

theorem slice (start stop : Nat) :
    (Scan.slice start stop).Arrives stands place reach fun piece place' reach' =>
      place' = place ∧ reach' ≤ max reach stop
        ∧ piece = (bytes.toList.take (place + stop)).drop (place + start) :=
  h.answer (.slice start stop) trivial _ _

theorem find (byte : UInt8) (rest : Bytes) (start : Nat) :
    (Scan.find (byte :: rest) start).Arrives stands place reach fun found place' reach' =>
      place' = place ∧ ∀ index, found = some index → reach' ≤ max reach (index + rest.length)
        ∧ IsFirst (byte :: rest <+: ·) bytes.toList (place + start) (place + index) :=
  h.answer (.find (byte :: rest) start) (List.cons_ne_nil byte rest) _ _

theorem findEither (a b : UInt8) (start : Nat) :
    (Scan.findEither a b start).Arrives stands place reach fun found place' reach' =>
      place' = place ∧ ∀ index, found = some index → reach' ≤ max reach index ∧ start ≤ index :=
  h.answer (.findEither a b start) trivial _ _

theorem skipRest :
    Scan.skipRest.Arrives stands place reach fun _ place' reach' => place ≤ place' ∧ reach' = 0 :=
  h.answer .skipRest trivial _ _

/-- What a cursor knows to be left is enough. -/
theorem left :
    Scan.left.Arrives stands place reach fun left place' reach' =>
      place' = place ∧ reach' = reach ∧ bytes.size ≤ place + left := by
  intro cursor cursor' value standing ran
  rw [Scan.run_left] at ran
  obtain ⟨⟨⟩, rfl⟩ := Prod.mk.inj ran
  have := h.left_eq standing
  exact ⟨place, reach, standing, rfl, rfl, by omega⟩

/-- No cursor stands behind the end of the input. -/
theorem arrives_of_size_lt {α : Type} {scan : Scan α} (outside : bytes.size < place)
    (post : α → Nat → Nat → Prop) : scan.Arrives stands place reach post := by
  intro cursor cursor' value standing ran
  have := h.place_le standing
  omega

/-- **A run of bytes of one class** is looked at up to its end. -/
theorem spanFrom (member : UInt8 → Bool) (start fuel : Nat) :
    (Scan.spanFrom member start fuel).Arrives stands place reach fun stop place' reach' =>
      place' = place ∧ start ≤ stop ∧ reach' ≤ max reach stop
        ∧ ∀ index, start ≤ index → index < stop →
          ∃ byte, bytes[place + index]? = some byte ∧ member byte = true := by
  induction fuel generalizing start reach with
  | zero => exact .pure ⟨rfl, le_rfl, le_max_left _ _, by omega⟩
  | succ fuel ih =>
    rw [Scan.spanFrom]
    refine .bind (h.peek start) ?_
    rintro (_ | byte) _ reach' ⟨rfl, told⟩
    · exact .pure ⟨rfl, le_rfl, told.trans (le_max_right _ _), by omega⟩
    · obtain ⟨near, here⟩ := told
      dsimp only
      split
      case isTrue belongs =>
        refine (ih (start + 1)).mono ?_
        rintro stop _ reach'' ⟨rfl, le, near', others⟩
        refine ⟨rfl, by omega, by omega, fun index hle hlt => ?_⟩
        rcases Nat.eq_or_lt_of_le hle with rfl | later
        · exact ⟨byte, here, belongs⟩
        · exact others index later hlt
      case isFalse => exact .pure ⟨rfl, le_rfl, near, by omega⟩

theorem spanEnd (member : UInt8 → Bool) (start : Nat) :
    (Scan.spanEnd member start).Arrives stands place reach fun stop place' reach' =>
      place' = place ∧ start ≤ stop ∧ reach' ≤ max reach stop
        ∧ ∀ index, start ≤ index → index < stop →
          ∃ byte, bytes[place + index]? = some byte ∧ member byte = true := by
  refine .bind h.left ?_
  rintro left _ _ ⟨rfl, rfl, -⟩
  exact h.spanFrom member start (left + 1)

/-! ## Between tokens -/

variable (settings : Settings)

/-- **A comment is gone over**, and where there is none, two bytes were looked
at. -/
theorem skipComment (near : reach ≤ 1) :
    settings.skipComment.Arrives stands place reach fun _ place' reach' =>
      place ≤ place' ∧ reach' ≤ 1 := by
  unfold Settings.skipComment
  refine .bind (h.look 0) ?_
  rintro first _ reach' ⟨rfl, near', -⟩
  refine .bind (h.look 1) ?_
  rintro second _ reach'' ⟨rfl, near'', -⟩
  split
  · refine .bind (h.find _ _ _) ?_
    rintro (_ | stop) _ reach₃ ⟨rfl, found⟩
    · refine .bind h.skipRest ?_
      rintro _ place' _ ⟨further, rfl⟩
      exact .pure ⟨further, Nat.zero_le _⟩
    · have near₃ := (found stop rfl).1
      refine .bind (h.advance _) ?_
      rintro _ _ _ ⟨rfl, back⟩
      rw [List.length_nil] at near₃
      exact .pure ⟨Nat.le_add_right _ _, by omega⟩
  · split
    · refine .bind (h.find _ _ _) ?_
      rintro (_ | stop) _ reach₃ ⟨rfl, found⟩
      · exact .bind (.malformed _ _ fun _ _ _ => False) nofun
      · have near₃ := (found stop rfl).1
        refine .bind (h.advance _) ?_
        rintro _ _ _ ⟨rfl, back⟩
        rw [List.length_singleton] at near₃
        exact .pure ⟨Nat.le_add_right _ _, by omega⟩
    · exact .pure ⟨le_rfl, by omega⟩

theorem skipBlanksWithin (fuel : Nat) (near : reach ≤ 1) :
    (settings.skipBlanksWithin fuel).Arrives stands place reach fun _ place' reach' =>
      place ≤ place' ∧ reach' ≤ 1 := by
  induction fuel generalizing place reach with
  | zero => exact .pure ⟨le_rfl, near⟩
  | succ fuel ih =>
    rw [Settings.skipBlanksWithin]
    have further : ∀ {place' reach'}, place ≤ place' → reach' ≤ 1 →
        (settings.skipComment >>= fun skipped =>
          if skipped then settings.skipBlanksWithin fuel else pure ()).Arrives stands place'
            reach' fun _ place' reach' => place ≤ place' ∧ reach' ≤ 1 := by
      intro place' reach' hle near'
      refine .bind (h.skipComment settings near') ?_
      rintro (_ | _) place'' reach'' ⟨hle', near''⟩
      · exact .pure ⟨hle.trans hle', near''⟩
      · exact (ih near'').mono fun _ _ _ there => ⟨(hle.trans hle').trans there.1, there.2⟩
    refine .bind (h.spanEnd _ _) ?_
    rintro blanks _ reach' ⟨rfl, -, near', -⟩
    dsimp only
    split
    · refine .bind (h.advance _) ?_
      rintro _ _ reach'' ⟨rfl, back⟩
      exact further (Nat.le_add_right _ _) (by omega)
    · exact further le_rfl (by omega)

/-- **Skipping blanks** looks at one byte more than the next. -/
theorem skipBlanks (near : reach ≤ 1) :
    settings.skipBlanks.Arrives stands place reach fun _ place' reach' =>
      place ≤ place' ∧ reach' ≤ 1 := by
  refine .bind h.left ?_
  rintro left _ _ ⟨rfl, rfl, -⟩
  exact h.skipBlanksWithin settings _ near

/-! ## Words and numbers -/

/-- **A word** is a keyword, or a name without a backtick. -/
theorem scanWord {byte : UInt8} (here : bytes[place]? = some byte)
    (letter : isLetter byte = true) (near : reach ≤ 1) :
    Settings.scanWord.Arrives stands place reach fun token place' reach' =>
      place < place' ∧ reach' ≤ 1 ∧ Simple token := by
  unfold Settings.scanWord
  refine .bind (h.spanEnd _ _) ?_
  rintro stop _ reach' ⟨rfl, le, near', others⟩
  refine .bind (h.slice _ _) ?_
  rintro _ _ reach'' ⟨rfl, near'', rfl⟩
  refine .bind (h.advance _) ?_
  rintro _ _ reach₃ ⟨rfl, back⟩
  refine .pure ⟨by omega, by omega, ?_⟩
  split
  · exact .keyword _
  · refine .identifier (backtick_notMem_decode fun mem => ?_)
    obtain ⟨index, low, high, found⟩ := exists_index_of_mem_slice mem
    obtain ⟨offset, rfl⟩ := Nat.exists_eq_add_of_le low
    rcases Nat.eq_zero_or_pos offset with rfl | later
    · obtain rfl := Option.some.inj (here.symm.trans found)
      exact absurd letter (by decide)
    · obtain ⟨other, there, member⟩ := others offset later (by omega)
      obtain rfl := Option.some.inj (there.symm.trans found)
      exact absurd member (by decide)

/-- A number whose end is known, one byte behind which may have been looked at. -/
theorem numeral {value? : Bytes → Option Token}
    (simple : ∀ literal token, value? literal = some token → Simple token) {stop : Nat}
    (pos : 0 < stop) (near : reach ≤ stop + 1) :
    (settings.numeral value? stop).Arrives stands place reach fun token place' reach' =>
      place < place' ∧ reach' ≤ 1 ∧ Simple token := by
  refine .bind (h.slice _ _) ?_
  rintro literal _ reach' ⟨rfl, near', -⟩
  split
  · rename_i token made
    refine .bind (h.advance _) ?_
    rintro _ _ reach'' ⟨rfl, back⟩
    exact .pure ⟨by omega, by omega, simple literal token made⟩
  · exact .malformed settings _ _

theorem fractionAt (start : Nat) :
    (Settings.fractionAt start).Arrives stands place reach fun _ place' reach' =>
      place' = place ∧ reach' ≤ max reach (start + 1) := by
  refine .bind (h.look _) ?_
  rintro point _ reach' ⟨rfl, near', -⟩
  split
  · refine .bind (h.look _) ?_
    rintro digit _ reach'' ⟨rfl, near'', -⟩
    exact .pure ⟨rfl, by omega⟩
  · exact .pure ⟨rfl, by omega⟩

/-- **A number** is finite and has no sign. -/
theorem scanNumber (near : reach ≤ 1) :
    settings.scanNumber.Arrives stands place reach fun token place' reach' =>
      place < place' ∧ reach' ≤ 1 ∧ Simple token := by
  refine .bind (h.spanEnd _ _) ?_
  rintro whole _ reach' ⟨rfl, le, near', -⟩
  refine .bind (h.fractionAt _) ?_
  rintro fraction _ reach'' ⟨rfl, near''⟩
  split
  · refine .bind (h.spanEnd _ _) ?_
    rintro stop _ reach₃ ⟨rfl, le', near₃, -⟩
    exact h.numeral settings (fun _ _ => Settings.simple_of_real?) (by omega) (by omega)
  · exact h.numeral settings (fun _ _ => Settings.simple_of_integer?) (by omega) (by omega)

/-! ## Quoted things -/

theorem quotedFrom (quote : UInt8) {fuel start : Nat} (found : Bytes) (near : reach ≤ start) :
    (settings.quotedFrom quote fuel start found).Arrives stands place reach
      fun _ place' reach' => place < place' ∧ reach' ≤ 1 := by
  induction fuel generalizing start reach found with
  | zero => exact .malformed settings _ _
  | succ fuel ih =>
    rw [Settings.quotedFrom]
    refine .bind (h.findEither _ _ _) ?_
    rintro (_ | mark) _ reach' ⟨rfl, marked⟩
    · exact .malformed settings _ _
    · obtain ⟨near', le⟩ := marked mark rfl
      refine .bind (h.slice _ _) ?_
      rintro piece _ reach'' ⟨rfl, near'', -⟩
      refine .bind (h.look _) ?_
      rintro byte _ reach₃ ⟨rfl, near₃, -⟩
      split
      · refine .bind (h.advance _) ?_
        rintro _ _ reach₄ ⟨rfl, back⟩
        exact .pure ⟨by omega, by omega⟩
      · refine .bind (h.look _) ?_
        rintro (_ | escaped) _ reach₄ ⟨rfl, near₄, -⟩
        · exact .malformed settings _ _
        · exact ih _ (by omega)

theorem scanText (quote : UInt8) (near : reach ≤ 1) :
    (settings.scanText quote).Arrives stands place reach fun token place' reach' =>
      place < place' ∧ reach' ≤ 1 ∧ Simple token := by
  refine .bind h.left ?_
  rintro left _ _ ⟨rfl, rfl, -⟩
  refine .bind (h.quotedFrom settings quote [] near) ?_
  rintro inside place' reach' ⟨further, near'⟩
  exact .pure ⟨further, near', .text _⟩

/-- **A name in backticks** has none in it. -/
theorem scanName (near : reach ≤ 1) :
    settings.scanName.Arrives stands place reach fun token place' reach' =>
      place < place' ∧ reach' ≤ 1 ∧ Simple token := by
  refine .bind (h.find _ _ _) ?_
  rintro (_ | stop) _ reach' ⟨rfl, found⟩
  · exact .malformed settings _ _
  · obtain ⟨near', first⟩ := found stop rfl
    rw [List.length_nil] at near'
    refine .bind (h.slice _ _) ?_
    rintro _ _ reach'' ⟨rfl, near'', rfl⟩
    refine .bind (h.advance _) ?_
    rintro _ _ reach₃ ⟨rfl, back⟩
    refine .pure ⟨by omega, by omega, .identifier (backtick_notMem_decode fun mem => ?_)⟩
    obtain ⟨index, low, high, there⟩ := exists_index_of_mem_slice mem
    -- the search would have ended there
    refine first.least index low high ?_
    rw [List.drop_eq_getElem?_toList_append, Array.getElem?_toList, there]
    exact List.prefix_append _ _

/-! ## Lists of tokens -/

theorem scanDelimiter {mark : Delimiter} (single : mark ∈ [.comma, .equal, .dot])
    (near : reach ≤ 1) :
    (Settings.scanDelimiter mark).Arrives stands place reach fun token place' reach' =>
      place < place' ∧ reach' ≤ 1 ∧ Simple token := by
  refine .bind (h.advance _) ?_
  rintro _ _ reach' ⟨rfl, back⟩
  exact .pure ⟨by omega, by omega, .mark single⟩

/-- **Any token that is no group.** -/
theorem scanSimple {byte : UInt8} (here : bytes[place]? = some byte) (near : reach ≤ 1) :
    (settings.scanSimple byte).Arrives stands place reach fun token place' reach' =>
      place < place' ∧ reach' ≤ 1 ∧ Simple token := by
  unfold Settings.scanSimple
  split_ifs with letter
  · exact h.scanWord here letter near
  · exact h.scanNumber settings near
  · exact h.scanText settings byte near
  · exact h.scanName settings near
  · exact h.scanDelimiter (by decide) near
  · exact h.scanDelimiter (by decide) near
  · exact h.scanDelimiter (by decide) near
  · exact .unexpected settings byte _

/-- **A group** has room inside for one group less than around it. -/
theorem scanGroup {depth : Nat} {inside : Scan (List Token)} (near : reach ≤ 1)
    (hinside : ∀ place' reach', place < place' → reach' ≤ 1 →
      inside.Arrives stands place' reach' fun tokens place'' reach'' =>
        place' ≤ place'' ∧ reach'' = 0
          ∧ ∀ token ∈ tokens, Canonical (settings.maxDepth - (depth + 1)) token) :
    (settings.scanGroup depth inside).Arrives stands place reach fun token place' reach' =>
      place < place' ∧ reach' ≤ 1 ∧ Canonical (settings.maxDepth - depth) token := by
  unfold Settings.scanGroup
  split
  case isTrue => exact .malformed settings _ _
  case isFalse room =>
    refine .bind (h.advance _) ?_
    rintro _ _ reach' ⟨rfl, back⟩
    refine .bind (h.skipBlanks settings (by omega)) ?_
    rintro _ place' reach'' ⟨further, near'⟩
    refine .bind (hinside place' reach'' (by omega) near') ?_
    rintro tokens place'' _ ⟨further', rfl, canonical⟩
    refine .pure ⟨by omega, Nat.zero_le _, ?_⟩
    rw [show settings.maxDepth - depth = settings.maxDepth - (depth + 1) + 1 by omega]
    exact .group canonical

/-- **The tokens up to a closing mark.** Nothing is looked at behind it. -/
theorem tokensWithin {fuel depth : Nat} {found : List Token}
    (enough : bytes.size < place + fuel) (near : reach ≤ 1)
    (hfound : ∀ token ∈ found, Canonical (settings.maxDepth - depth) token) :
    (settings.tokensWithin fuel depth found).Arrives stands place reach
      fun tokens place' reach' => place ≤ place' ∧ reach' = 0
        ∧ ∀ token ∈ tokens, Canonical (settings.maxDepth - depth) token := by
  -- both the list inside of a group and the list behind a token begin further on
  induction fuel generalizing place reach depth found with
  | zero => exact h.arrives_of_size_lt enough _
  | succ fuel ih =>
    have all : ∀ token ∈ found.reverse, Canonical (settings.maxDepth - depth) token :=
      fun token mem => hfound token (List.mem_reverse.1 mem)
    rw [Settings.tokensWithin]
    refine .bind (h.peek 0) ?_
    rintro (_ | byte) place reach' ⟨rfl, told⟩
    · dsimp only
      split
      · exact .pure ⟨le_rfl, Nat.le_zero.1 told, all⟩
      · exact .malformed settings _ _
    · obtain ⟨near', here⟩ := told
      dsimp only
      split
      · refine .bind (h.advance _) ?_
        rintro _ _ reach'' ⟨rfl, back⟩
        exact .pure ⟨Nat.le_add_right _ _, by omega, all⟩
      · have further : ∀ {scan : Scan Token},
            (scan.Arrives stands place reach' fun token place' reach' =>
              place < place' ∧ reach' ≤ 1 ∧ Canonical (settings.maxDepth - depth) token) →
            (scan >>= fun token => settings.skipBlanks >>= fun _ =>
              settings.tokensWithin fuel depth (token :: found)).Arrives stands place reach'
                fun tokens place' reach' => place ≤ place' ∧ reach' = 0
                  ∧ ∀ token ∈ tokens, Canonical (settings.maxDepth - depth) token := by
          intro scan hscan
          refine .bind hscan ?_
          rintro token place₁ reach₁ ⟨on₁, near₁, canonical⟩
          refine .bind (h.skipBlanks settings near₁) ?_
          rintro _ place₂ reach₂ ⟨on₂, near₂⟩
          refine (ih (by omega) near₂ (List.forall_mem_cons.2 ⟨canonical, hfound⟩)).mono ?_
          rintro tokens place₃ reach₃ ⟨on₃, rest⟩
          exact ⟨by omega, rest⟩
        split
        · refine further (h.scanGroup settings (by omega) fun place₁ reach₁ on₁ near₁ => ?_)
          exact ih (by omega) near₁ (List.forall_mem_nil _)
        · refine further ((h.scanSimple settings here (by omega)).mono ?_)
          rintro token place₁ reach₁ ⟨on₁, near₁, simple⟩
          exact ⟨on₁, near₁, .simple simple⟩

/-- **The next statement** has tokens with a canonical text, and nothing was
looked at behind it. -/
theorem scanStatement (near : reach ≤ 1) :
    settings.scanStatement.Arrives stands place reach fun found _ reach' =>
      reach' = 0 ∧ ∀ statement, found = some statement →
        ∀ token ∈ statement.tokens, Canonical settings.maxDepth token := by
  refine .bind (h.skipBlanks settings near) ?_
  rintro _ place₁ reach₁ ⟨-, near₁⟩
  have looked : Scan.atEnd.Arrives stands place₁ reach₁ fun ended _ reach' =>
      reach' ≤ 1 ∧ (ended = true → reach' = 0) := by
    refine .bind (h.peek 0) ?_
    rintro (_ | byte) place' reach' ⟨-, told⟩
    · exact .pure ⟨by omega, fun _ => Nat.le_zero.1 told⟩
    · exact .pure ⟨by omega, nofun⟩
  refine .bind looked ?_
  rintro ended place₂ reach₂ ⟨near₂, atEnd⟩
  split
  case isTrue ends => exact .pure ⟨atEnd ends, nofun⟩
  case isFalse =>
    refine .bind h.left ?_
    rintro left place₃ _ ⟨rfl, rfl, enough⟩
    refine .bind (h.tokensWithin settings (by omega) near₂ (List.forall_mem_nil _)) ?_
    rintro tokens place₃ _ ⟨-, rfl, canonical⟩
    refine .pure ⟨rfl, ?_⟩
    rintro _ ⟨⟩
    exact canonical

end

end Footing

end TableDump
