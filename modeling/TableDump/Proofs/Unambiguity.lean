import Mathlib
import TableDump.Proofs.Diagnosis
import TableDump.Proofs.Following

/-!
# There is one thing wrong

The parts of a dump can be told in one way only: the first byte of a part says what it
is (`Grammar.Part.exists_beginning`), and then it is as long as it must be
(`Grammar.Part.unique`). And where reading is stuck, no part begins
(`Grammar.Stuck.not_part`). So some bytes have one place at most where reading them is
stuck, and there is one reason for it, up to how a strange character is called
(`Grammar.Parts.stuck_unique`).

Nothing of this is proved by taking tokens apart again. That a scan recognizes a relation
is already to say that the relation has one derivation, since the scan comes to one end
(`Scan.Recognizes.unique`), and what cannot be read is what the scan of tokens refuses
(`Settings.run_scanSimple_unreadable`).
-/

namespace TableDump

open Grammar
open InMemory (between)

namespace Grammar

variable {maxDepth depth after after' : Nat} {part part' source rest rest' : Bytes}

/-! ## One way to go on -/

/-- **There is one comment**, if one begins. -/
theorem Comment.unique (h : Comment part rest) (h' : Comment part' rest')
    (same : part ++ rest = part' ++ rest') : part = part' ∧ rest = rest' :=
  ((({} : Settings).recognizes_skipComment [] (part ++ rest)).unique rfl same
    (.inl ⟨rfl, h⟩) (.inl ⟨rfl, h'⟩)).2

/-- Two blanks in front of the same bytes are the same. -/
theorem Blank.unique (h : Blank part rest) (h' : Blank part' rest')
    (same : part ++ rest = part' ++ rest') : part = part' ∧ rest = rest' := by
  cases h with
  | @space byte _ space =>
    cases h' with
    | space =>
      obtain ⟨rfl, rfl⟩ := List.cons.inj same
      exact ⟨rfl, rfl⟩
    | comment comment =>
      obtain ⟨first, tail, rfl, other⟩ := comment.exists_cons
      obtain ⟨rfl, -⟩ := List.cons.inj same
      exact absurd space other
  | comment comment =>
    cases h' with
    | space space =>
      obtain ⟨first, tail, rfl, other⟩ := comment.exists_cons
      obtain ⟨rfl, -⟩ := List.cons.inj same
      exact absurd space other
    | comment comment' => exact comment.unique comment' same

/-- Two tokens in front of the same bytes are the same. -/
theorem Lexeme.unique {token token' : Token} (h : Lexeme token part rest)
    (h' : Lexeme token' part' rest') (same : part ++ rest = part' ++ rest') :
    part = part' ∧ rest = rest' := by
  obtain ⟨byte, tail, rfl, -⟩ := h.exists_leading
  have recognizes : (Settings.scanSimple {} byte).Recognizes [] (byte :: tail ++ rest) Lexeme :=
    Settings.recognizes_scanSimple {} rfl
  exact (recognizes.unique rfl same h h').2

/-- A blank begins with a byte that begins nothing else. -/
theorem Blank.exists_cons (h : Blank part rest) (around : Nat) :
    ∃ byte tail, part = byte :: tail ∧ ¬ Leads byte ∧ byte ≠ ascii '('
      ∧ byte ≠ ascii (Settings.closing around) := by
  have closing : ∀ byte, byte ≠ ascii ';' → byte ≠ ascii ')' →
      byte ≠ ascii (Settings.closing around) := by
    intro byte semicolon rightParen
    unfold Settings.closing
    split
    · exact semicolon
    · exact rightParen
  cases h with
  | @space byte _ space =>
    refine ⟨byte, [], rfl, fun leads => leads.space space, ?_, closing byte ?_ ?_⟩ <;>
      rintro rfl <;> revert space <;> decide
  | comment comment =>
    cases comment with
    | line | lastLine | block =>
      exact ⟨_, _, rfl, by decide, by decide, closing _ (by decide) (by decide)⟩

/-- What a byte begins that begins a part. -/
inductive Beginning where
  | blank
  | lexeme
  | opening
  | closing

/-- **A byte says what it begins.** -/
def beginning (depth : Nat) (byte : UInt8) : Beginning :=
  if byte = ascii (Settings.closing depth) then .closing
  else if byte = ascii '(' then .opening
  else if Leads byte then .lexeme
  else .blank

/-- **The first byte of a part says what it is.** -/
theorem Part.exists_beginning (h : Part maxDepth depth after part rest) :
    ∃ byte tail, part = byte :: tail ∧
      match beginning depth byte with
      | .blank => after = depth ∧ Blank part rest
      | .lexeme => after = depth ∧ ∃ token, Lexeme token part rest
      | .opening => depth < maxDepth ∧ after = depth + 1 ∧ part = [ascii '(']
      | .closing => after = depth - 1 ∧ part = [ascii (Settings.closing depth)] := by
  cases h with
  | blank blank =>
    obtain ⟨byte, tail, rfl, leads, opening, closing⟩ := blank.exists_cons depth
    refine ⟨byte, tail, rfl, ?_⟩
    rw [beginning, if_neg closing, if_neg opening, if_neg leads]
    exact ⟨rfl, blank⟩
  | lexeme lexeme =>
    obtain ⟨byte, tail, rfl, leads, opening⟩ := lexeme.exists_leading
    refine ⟨byte, tail, rfl, ?_⟩
    rw [beginning, if_neg leads.ne_closing, if_neg opening, if_pos leads]
    exact ⟨rfl, _, lexeme⟩
  | opens room =>
    refine ⟨_, [], rfl, ?_⟩
    have leads : Leads (ascii '(') := by decide
    rw [beginning, if_neg leads.ne_closing, if_pos rfl]
    exact ⟨room, rfl, rfl⟩
  | closes =>
    refine ⟨_, [], rfl, ?_⟩
    rw [beginning, if_pos rfl]
    exact ⟨rfl, rfl⟩

/-- **There is one way to go on**, if there is any. -/
theorem Part.unique (h : Part maxDepth depth after part rest)
    (h' : Part maxDepth depth after' part' rest') (same : part ++ rest = part' ++ rest') :
    after = after' ∧ part = part' ∧ rest = rest' := by
  obtain ⟨byte, tail, rfl, here⟩ := h.exists_beginning
  obtain ⟨byte', tail', rfl, here'⟩ := h'.exists_beginning
  obtain ⟨rfl, -⟩ := List.cons.inj same
  cases begins : beginning depth byte <;> rw [begins] at here here'
  case blank =>
    obtain ⟨rfl, blank⟩ := here
    obtain ⟨rfl, blank'⟩ := here'
    exact ⟨rfl, blank.unique blank' same⟩
  case lexeme =>
    obtain ⟨rfl, token, lexeme⟩ := here
    obtain ⟨rfl, token', lexeme'⟩ := here'
    exact ⟨rfl, lexeme.unique lexeme' same⟩
  case opening =>
    obtain ⟨-, rfl, part_eq⟩ := here
    obtain ⟨-, rfl, part_eq'⟩ := here'
    rw [part_eq, part_eq'] at same ⊢
    exact ⟨rfl, rfl, List.append_cancel_left same⟩
  case closing =>
    obtain ⟨rfl, part_eq⟩ := here
    obtain ⟨rfl, part_eq'⟩ := here'
    rw [part_eq, part_eq'] at same ⊢
    exact ⟨rfl, rfl, List.append_cancel_left same⟩

end Grammar

/-! ## What cannot be read -/

/-- **What cannot be read is refused**, wherever it stands. -/
theorem Settings.run_scanSimple_unreadable (settings : Settings) (before : Bytes)
    {cause : Malformation} {byte : UInt8} {tail : Bytes} (h : Unreadable cause (byte :: tail)) :
    ∃ named, named.Alike cause
      ∧ (settings.scanSimple byte).run (between before (byte :: tail))
        = (.error (settings.faultAt named before (byte :: tail)),
            between before (byte :: tail)) := by
  have spelled : ∀ {literal : String} {digits : Bytes}, Utf8.encode literal.toList = digits →
      Malformation.invalidNumber (Utf8.decode digits) = .invalidNumber literal := by
    rintro literal _ rfl
    rw [Utf8.decode_encode, String.ofList_toList]
  generalize written : byte :: tail = input at h ⊢
  cases h with
  | @text quote tail mark unclosed =>
    obtain ⟨rfl, -⟩ := List.cons.inj written
    have marked : ascii quote = ascii '\x27' ∨ ascii quote = ascii '"' :=
      mark.imp (congrArg ascii) (congrArg ascii)
    have named : Char.ofNat (ascii quote).toNat = quote := by
      rcases mark with rfl | rfl <;> rfl
    refine ⟨.unterminatedString quote, .same _, ?_⟩
    rw [settings.scanSimple_of_quote marked, settings.run_scanText_open before marked unclosed,
      named]
  | name unclosed =>
    obtain ⟨rfl, -⟩ := List.cons.inj written
    exact ⟨_, .same _, settings.run_scanName_open unclosed⟩
  | @integer literal digits rest bytes encoded ends whole large =>
    have digit : IsDigit byte := by
      obtain ⟨first, others, rfl⟩ := List.exists_cons_of_ne_nil bytes.ne_nil
      obtain ⟨rfl, -⟩ := List.cons.inj written
      exact bytes.bytes byte List.mem_cons_self
    refine ⟨_, .same _, ?_⟩
    rw [settings.scanSimple_of_digit digit, settings.run_scanNumber bytes ends whole,
      ← spelled encoded]
    exact settings.run_numeral_none (by rw [integer?_eq, if_neg (Nat.not_lt.2 large)])
  | @real literal whole fraction rest hwhole hfraction encoded ends large =>
    have digit : IsDigit byte := by
      obtain ⟨first, others, rfl⟩ := List.exists_cons_of_ne_nil hwhole.ne_nil
      obtain ⟨rfl, -⟩ := List.cons.inj written
      exact hwhole.bytes byte List.mem_cons_self
    refine ⟨_, .same _, ?_⟩
    rw [settings.scanSimple_of_digit digit,
      settings.run_scanNumber_fraction hwhole hfraction ends, ← spelled encoded]
    exact settings.run_numeral_none (by rw [real?_eq hwhole, large]; rfl)
  | byte foreign =>
    obtain ⟨rfl, rfl⟩ := List.cons.inj written
    have none : ¬ Begins byte := fun begins =>
      let ⟨token, source, rest, lexeme⟩ := begins.exists_lexeme
      foreign token source rest lexeme
    refine ⟨_, .unexpectedCharacter (settings.firstShown (byte :: tail)) _, ?_⟩
    rw [settings.scanSimple_of_foreign none]
    exact settings.run_unexpected before byte tail

namespace Grammar

variable {maxDepth depth after after' : Nat} {source source' part rest rest' : Bytes}
  {cause cause' : Malformation} {byte : UInt8} {tail : Bytes}

/-- **What cannot be read is no token.** -/
theorem Unreadable.not_lexeme (h : Unreadable cause (byte :: tail ++ rest)) (token : Token) :
    ¬ Lexeme token (byte :: tail) rest := by
  intro lexeme
  obtain ⟨named, -, failed⟩ := Settings.run_scanSimple_unreadable {} [] h
  have ran : (Settings.scanSimple {} byte).run (between [] (byte :: tail ++ rest)) = (.ok token, _) :=
    Settings.run_scanSimple {} lexeme rfl
  exact absurd (failed.symm.trans ran) (by simp)

/-- There is one reason for it. -/
theorem Unreadable.alike (h : Unreadable cause (byte :: tail))
    (h' : Unreadable cause' (byte :: tail)) : cause.Alike cause' := by
  obtain ⟨named, alike, failed⟩ := Settings.run_scanSimple_unreadable {} [] h
  obtain ⟨named', alike', failed'⟩ := Settings.run_scanSimple_unreadable {} [] h'
  rw [failed] at failed'
  obtain ⟨fault_eq, -⟩ := Prod.mk.inj failed'
  obtain ⟨rfl, -⟩ := Fault.malformed.inj (Except.error.inj fault_eq)
  exact alike.symm.trans alike'

/-- **At a settled place no blank begins.** -/
theorem Settled.not_blank (h : Settled (part ++ rest)) : ¬ Blank part rest := by
  intro blank
  cases blank with
  | @space byte _ space => exact h.space byte rfl space
  | comment comment =>
    cases comment with
    | line | lastLine => exact h.line (by simp)
    | block => exact h.block (by simp)

/-- A blank that begins like a block comment is one, and so it ends. -/
theorem Blank.closed {text : Bytes} (h : Blank (ascii '/' :: tail) rest)
    (behind : tail ++ rest = ascii '*' :: text) : [ascii '*', ascii '/'] <:+: text := by
  generalize written : ascii '/' :: tail = part at h
  cases h with
  | space space =>
    obtain ⟨rfl, -⟩ := List.cons.inj written
    exact absurd space (by decide)
  | comment comment =>
    cases comment with
    | line | lastLine => exact absurd (List.cons.inj written).1 (by decide)
    | @block inner =>
      obtain ⟨-, rfl⟩ := List.cons.inj written
      obtain ⟨-, rfl⟩ := List.cons.inj behind
      exact ⟨inner, rest, rfl⟩

/-- **Where reading is stuck, no part begins.** -/
theorem Stuck.not_part (h : Stuck maxDepth depth cause (part ++ rest)) :
    ¬ Part maxDepth depth after part rest := by
  intro h'
  obtain ⟨byte, tail, rfl, here⟩ := h'.exists_beginning
  generalize written : byte :: tail ++ rest = input at h
  cases h with
  | @comment text unclosed =>
    obtain ⟨rfl, behind⟩ := List.cons.inj written
    have closing_ne : ascii '/' ≠ ascii (Settings.closing depth) := by
      unfold Settings.closing
      split <;> decide
    rw [beginning, if_neg closing_ne, if_neg (by decide), if_neg (by decide)] at here
    obtain ⟨rfl, blank⟩ := here
    exact unclosed (blank.closed behind)
  | token settled unreadable opens_ne closing_ne =>
    obtain ⟨rfl, rfl⟩ := List.cons.inj written
    rw [beginning, if_neg closing_ne, if_neg opens_ne] at here
    by_cases leads : Leads byte
    · rw [if_pos leads] at here
      obtain ⟨rfl, token, lexeme⟩ := here
      exact unreadable.not_lexeme token lexeme
    · rw [if_neg leads] at here
      obtain ⟨rfl, blank⟩ := here
      exact settled.not_blank blank
  | nesting full =>
    obtain ⟨rfl, -⟩ := List.cons.inj written
    have leads : Leads (ascii '(') := by decide
    rw [beginning, if_neg leads.ne_closing, if_pos rfl] at here
    exact absurd full here.1.ne
  | missing inside => cases written

/-- **There is one reason for being stuck.** -/
theorem Stuck.alike (h : Stuck maxDepth depth cause rest) (h' : Stuck maxDepth depth cause' rest) :
    cause.Alike cause' := by
  cases h with
  | comment unclosed =>
    generalize written : ascii '/' :: ascii '*' :: _ = input at h'
    cases h' with
    | comment => exact .same _
    | token settled =>
      rw [← written] at settled
      exact absurd (by simp) settled.block
    | nesting => cases written
    | missing => cases written
  | token settled unreadable opens_ne closing_ne =>
    generalize written : _ :: _ = input at h'
    cases h' with
    | comment =>
      rw [written] at settled
      exact absurd (by simp) settled.block
    | token settled' unreadable' =>
      rw [← written] at unreadable'
      exact unreadable.alike unreadable'
    | nesting => exact absurd (List.cons.inj written).1 opens_ne
    | missing => cases written
  | nesting full =>
    generalize written : ascii '(' :: _ = input at h'
    cases h' with
    | comment => cases written
    | token settled unreadable opens_ne => exact absurd (List.cons.inj written).1.symm opens_ne
    | nesting => exact .same _
    | missing => cases written
  | missing inside =>
    cases h' with
    | missing => exact .same _

/-- **Reading some bytes is stuck at one place only**, and for one reason. -/
theorem Parts.stuck_unique (h : Parts maxDepth depth after source rest)
    (stuck : Stuck maxDepth after cause rest) (h' : Parts maxDepth depth after' source' rest')
    (stuck' : Stuck maxDepth after' cause' rest') (same : source ++ rest = source' ++ rest') :
    source = source' ∧ cause.Alike cause' := by
  induction h generalizing source' with
  | nil =>
    cases h' with
    | nil =>
      obtain rfl : _ = rest' := same
      exact ⟨rfl, stuck.alike stuck'⟩
    | cons first others =>
      rw [List.nil_append, List.append_assoc] at same
      rw [same] at stuck
      exact absurd first stuck.not_part
  | cons first others ih =>
    cases h' with
    | nil =>
      rw [List.nil_append, List.append_assoc] at same
      rw [← same] at stuck'
      exact absurd first stuck'.not_part
    | cons first' others' =>
      rw [List.append_assoc, List.append_assoc] at same
      obtain ⟨rfl, rfl, behind⟩ := first.unique first' same
      obtain ⟨rfl, alike⟩ := ih stuck others' behind
      exact ⟨rfl, alike⟩

end Grammar

/-- **There is one place that a fault can point at**, however much of the input is quoted. -/
theorem Settings.Points.unique {settings settings' : Settings} {bytes : Bytes} {fault fault' : Fault}
    {place place' : Nat} (h : settings.Points bytes fault place)
    (h' : settings'.Points bytes fault' place')
    (maxDepth_eq : settings.maxDepth = settings'.maxDepth) :
    place = place' ∧ ∃ cause cause',
      fault = .malformed cause
          { offset := place, excerpt := Utf8.decode ((bytes.drop place).take settings.excerptLength) }
        ∧ fault' = .malformed cause'
          { offset := place, excerpt := Utf8.decode ((bytes.drop place).take settings'.excerptLength) }
        ∧ cause.Alike cause' := by
  obtain ⟨inside, cause, depth, rfl, underway, stuck, -⟩ := h
  obtain ⟨inside', cause', depth', rfl, underway', stuck', -⟩ := h'
  rw [← maxDepth_eq] at underway' stuck'
  obtain ⟨same, alike⟩ := underway.stuck_unique stuck underway' stuck'
    ((List.take_append_drop place bytes).trans (List.take_append_drop place' bytes).symm)
  obtain rfl : place = place' := by
    have := congrArg List.length same
    rwa [List.length_take, List.length_take, min_eq_left inside, min_eq_left inside'] at this
  exact ⟨rfl, cause, cause', rfl, rfl, alike⟩

end TableDump
