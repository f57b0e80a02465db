import Mathlib
import TableDump.Proofs.Forward
import TableDump.Proofs.SameReading

/-!
# Reading makes headway

The rules by which tokens are read call each other and themselves, and nothing in their text says
that this comes to an end. It does because of where the cursor is. A token takes a byte at least,
whatever it is. A round of skipping that goes on has gone over a comment, and no comment is
shorter than its two marks, also where it is ended by the end of the input. And a cursor does not
go back (`Advancing`).

So the list in a group, and the list behind a token, begin further on than the list that they are
read for (`Settings.Needs`). That is a well-founded relation between places of the input, and
reading lists of tokens is recursion along it: the fuel that bounds the recursion is more than it
can take, and the equations by which lists are read hold without any (`Advancing.run_tokens`).

For the same reason no call for a statement hands out one without going further, and an input has
no more statements than bytes (`Reader.Progresses`).
-/

namespace TableDump

variable {α β κ : Type}

namespace Scan

/-- **What is read from a place on** is all that matters to a sequence. -/
theorem run_bind_congr [Cursor κ] {first first' : Scan α} {next next' : α → Scan β} {cursor : κ}
    (same : first.run cursor = first'.run cursor)
    (behind : ∀ value cursor', first.run cursor = (.ok value, cursor') →
      (next value).run cursor' = (next' value).run cursor') :
    (first >>= next).run cursor = (first' >>= next').run cursor := by
  rw [run_bind, run_bind, ← same]
  rcases ran : first.run cursor with ⟨fault | value, cursor'⟩
  · rfl
  · exact behind value cursor' ran

/-- Where reading cannot go on there is no value. -/
theorem not_ok_of_malformed [Cursor κ] {settings : Settings} {cause : Malformation} {value : α}
    {cursor cursor' : κ} :
    (settings.malformed cause : Scan α).run cursor ≠ (.ok value, cursor') := by
  intro ran
  obtain ⟨_, _, -, ran⟩ := ok_of_run_bind ran
  obtain ⟨_, _, -, ran⟩ := ok_of_run_bind ran
  simp at ran

/-- **A reading that succeeds from a cursor that is sound** comes to a cursor that is sound. -/
theorem Arrives.of_sound [Cursor κ] {sound : κ → Prop} {scan : Scan α}
    {post : α → (place' reach' : Nat) → Prop} {cursor cursor' : κ} {value : α}
    (h : scan.Arrives (fun place _ cursor => Cursor.position cursor = place ∧ sound cursor)
      (Cursor.position cursor) 0 post)
    (here : sound cursor) (ran : scan.run cursor = (.ok value, cursor')) :
    sound cursor' ∧ ∃ reach', post value (Cursor.position cursor') reach' := by
  obtain ⟨_, reach', ⟨rfl, there⟩, holds⟩ := h _ _ _ ⟨rfl, here⟩ ran
  exact ⟨there, reach', holds⟩

end Scan

/-! ## The rules without their loops -/

namespace Settings

variable (settings : Settings)

/-- **One round of skipping**: blanks, and a comment if there is one. Tells whether there was. -/
def skipRound : Scan Bool := do
  let blanks ← Scan.spanEnd isBlank 0
  if 0 < blanks then Scan.advance blanks
  settings.skipComment

/-- Skipping is one round after the other. -/
theorem skipBlanksWithin_succ (fuel : Nat) :
    settings.skipBlanksWithin (fuel + 1) = settings.skipRound >>= fun again =>
      if again then settings.skipBlanksWithin fuel else pure () := by
  rw [skipBlanksWithin, skipRound, Scan.bind_assoc]
  refine congrArg _ (funext fun blanks => ?_)
  dsimp only
  split
  · rw [Scan.bind_assoc]
  · rfl

/-- A token that begins with `byte`, the next one. What is in a group is read by `inside`. -/
def scanToken (depth : Nat) (inside : Scan (List Token)) (byte : UInt8) : Scan Token :=
  if byte == ascii '(' then settings.scanGroup depth inside else settings.scanSimple byte

/-- **A list of tokens from its first byte on**, if `lists` reads any list that is further on. -/
def tokensVia (lists : (depth : Nat) → (before : List Token) → Scan (List Token)) (depth : Nat)
    (before : List Token) : Option UInt8 → Scan (List Token)
  | none =>
    if depth = 0 then return before.reverse
    else settings.malformed (.missingDelimiter (closing depth))
  | some byte => do
    if byte == ascii (closing depth) then
      Scan.advance 1
      return before.reverse
    else
      let token ← settings.scanToken depth (lists (depth + 1) []) byte
      settings.skipBlanks
      lists depth (token :: before)

theorem tokensWithin_succ (fuel depth : Nat) (before : List Token) :
    settings.tokensWithin (fuel + 1) depth before
      = Scan.peek 0 >>= settings.tokensVia (settings.tokensWithin fuel) depth before := by
  rw [tokensWithin]
  refine congrArg _ (funext fun byte => ?_)
  cases byte with
  | none => rfl
  | some byte =>
    dsimp only [tokensVia]
    split
    · rfl
    · unfold scanToken
      split <;> rfl

/-- A list of tokens, with as much fuel as it could take. -/
def tokens (depth : Nat) (before : List Token) : Scan (List Token) := do
  settings.tokensWithin ((← Scan.left) + 1) depth before

/-- A statement is such a list, outside of all groups. -/
theorem scanStatement_eq :
    settings.scanStatement = (do
      settings.skipBlanks
      if ← Scan.atEnd then return none
      else
        let tokens ← settings.tokens 0 []
        return some { tokens }) := by
  unfold scanStatement
  refine congrArg _ (funext fun _ => congrArg _ (funext fun ended => ?_))
  rw [tokens, Scan.bind_assoc]

/-- **The lists that a list of tokens is read by**: the one in the group that it begins with, and
the one behind its first token. A list is given by the cursor at its first byte and the number of
groups around it. -/
inductive Needs [Cursor κ] : (inner outer : κ × Nat) → Prop where
  | inside {cursor cursor₁ cursor₂ cursor₃ : κ} {depth : Nat} (room : depth < settings.maxDepth)
      (seen : (Scan.peek 0).run cursor = (.ok (some (ascii '(')), cursor₁))
      (opened : (Scan.advance 1).run cursor₁ = (.ok (), cursor₂))
      (skipped : settings.skipBlanks.run cursor₂ = (.ok (), cursor₃)) :
      Needs (cursor₃, depth + 1) (cursor, depth)
  | behind {cursor cursor₁ cursor₂ cursor₃ : κ} {depth fuel : Nat} {byte : UInt8} {token : Token}
      (other : byte ≠ ascii (closing depth))
      (seen : (Scan.peek 0).run cursor = (.ok (some byte), cursor₁))
      (read : (settings.scanToken depth (settings.tokensWithin fuel (depth + 1) []) byte).run
        cursor₁ = (.ok token, cursor₂))
      (skipped : settings.skipBlanks.run cursor₂ = (.ok (), cursor₃)) :
      Needs (cursor₃, depth) (cursor, depth)

end Settings

namespace Advancing

variable [Cursor κ] {bytes : Array UInt8} {sound : κ → Prop} {known : κ → Nat} {told : κ → Prop}
  {cursor cursor' cursor'' : κ} {settings : Settings}

section

variable (h : Advancing bytes sound known told)
include h

/-! ## Questions -/

/-- The next byte, if there is one, is one of the input. -/
theorem peek {offset : Nat} {found : Option UInt8} (here : sound cursor)
    (ran : (Scan.peek offset).run cursor = (.ok found, cursor')) :
    sound cursor' ∧ Cursor.position cursor' = Cursor.position cursor
      ∧ ∀ byte, found = some byte → bytes[Cursor.position cursor + offset]? = some byte := by
  obtain ⟨there, _, same, -, shown⟩ := (h.footing.look offset).of_sound here ran
  exact ⟨there, same, shown⟩

theorem advance {count : Nat} (here : sound cursor)
    (ran : (Scan.advance count).run cursor = (.ok (), cursor')) :
    sound cursor' ∧ Cursor.position cursor' = Cursor.position cursor + count := by
  obtain ⟨there, _, moved, -⟩ := (h.footing.advance count).of_sound here ran
  exact ⟨there, moved⟩

/-- What is found by a search is found where it was searched. -/
theorem find {byte : UInt8} {rest : Bytes} {start stop : Nat} (here : sound cursor)
    (ran : (Scan.find (byte :: rest) start).run cursor = (.ok (some stop), cursor')) :
    sound cursor' ∧ Cursor.position cursor' = Cursor.position cursor ∧ start ≤ stop := by
  obtain ⟨there, _, same, found⟩ := (h.footing.find byte rest start).of_sound here ran
  exact ⟨there, same, Nat.le_of_add_le_add_left (found stop rfl).2.le⟩

/-- Any reading goes forward. -/
theorem of_run {scan : Scan α} {outcome : Except Fault α} (here : sound cursor)
    (ran : scan.run cursor = (outcome, cursor')) :
    sound cursor' ∧ Cursor.position cursor ≤ Cursor.position cursor'
      ∧ known cursor ≤ known cursor' := by
  have after := h.run scan here
  rwa [ran] at after

/-- A cursor knows how much it has in front of it. -/
theorem left_eq (here : sound cursor) : Cursor.left cursor = bytes.size - Cursor.position cursor :=
  @Footing.left_eq _ _ _ _ h.footing _ 0 _ ⟨rfl, here⟩

theorem position_le_size (here : sound cursor) : Cursor.position cursor ≤ bytes.size :=
  (h.position_le here).trans (h.known_le here)

/-! ## Between tokens -/

/-- **A comment takes two bytes**, its marks. -/
theorem skipComment (here : sound cursor)
    (ran : settings.skipComment.run cursor = (.ok true, cursor')) :
    Cursor.position cursor + 2 ≤ Cursor.position cursor' := by
  unfold Settings.skipComment at ran
  obtain ⟨first, cursor₁, looked, ran⟩ := Scan.ok_of_run_bind ran
  obtain ⟨here₁, position₁, -⟩ := h.peek here looked
  obtain ⟨second, cursor₂, looked', ran⟩ := Scan.ok_of_run_bind ran
  obtain ⟨here₂, position₂, -⟩ := h.peek here₁ looked'
  split at ran
  case isTrue marks =>
    obtain ⟨-, rfl⟩ := (Bool.and_eq_true_iff.1 marks).imp eq_of_beq eq_of_beq
    -- both marks have been seen, so the end of the input is behind them
    have seen := h.seen here₁ ((Scan.run_ask _ _).symm.trans looked')
    obtain ⟨found, cursor₃, searched, ran⟩ := Scan.ok_of_run_bind ran
    dsimp only at ran
    split at ran
    · obtain ⟨here₃, position₃, le⟩ := h.find here₂ searched
      obtain ⟨_, cursor₄, moved, ran⟩ := Scan.ok_of_run_bind ran
      obtain ⟨-, rfl⟩ := Prod.mk.inj ((Scan.run_pure _ _).symm.trans ran)
      have position₄ := (h.advance here₃ moved).2
      omega
    · obtain ⟨here₃, -, known₃⟩ := h.of_run here₂ searched
      obtain ⟨_, cursor₄, skipped, ran⟩ := Scan.ok_of_run_bind ran
      obtain ⟨-, rfl⟩ := Prod.mk.inj ((Scan.run_pure _ _).symm.trans ran)
      have known₄ := (h.of_run here₃ skipped).2.2
      have ended := h.skipped here₃ ((Scan.run_ask _ _).symm.trans skipped)
      omega
  case isFalse =>
    split at ran
    · obtain ⟨found, cursor₃, searched, ran⟩ := Scan.ok_of_run_bind ran
      dsimp only at ran
      split at ran
      · obtain ⟨here₃, position₃, le⟩ := h.find here₂ searched
        obtain ⟨_, cursor₄, moved, ran⟩ := Scan.ok_of_run_bind ran
        obtain ⟨-, rfl⟩ := Prod.mk.inj ((Scan.run_pure _ _).symm.trans ran)
        have position₄ := (h.advance here₃ moved).2
        omega
      · obtain ⟨_, _, failed, -⟩ := Scan.ok_of_run_bind ran
        exact absurd failed Scan.not_ok_of_malformed
    · simp at ran

/-- **A round that goes on** has gone over a comment. -/
theorem skipRound (here : sound cursor)
    (ran : settings.skipRound.run cursor = (.ok true, cursor')) :
    Cursor.position cursor + 2 ≤ Cursor.position cursor' := by
  have commented : ∀ {cursor₁ : κ}, sound cursor₁ →
      Cursor.position cursor ≤ Cursor.position cursor₁ →
      settings.skipComment.run cursor₁ = (.ok true, cursor') →
      Cursor.position cursor + 2 ≤ Cursor.position cursor' := by
    intro cursor₁ here₁ further ran
    have := h.skipComment here₁ ran
    omega
  obtain ⟨blanks, cursor₁, spanned, ran⟩ := Scan.ok_of_run_bind ran
  obtain ⟨here₁, further₁, -⟩ := h.of_run here spanned
  dsimp only at ran
  split at ran
  · obtain ⟨_, cursor₂, moved, ran⟩ := Scan.ok_of_run_bind ran
    obtain ⟨here₂, further₂, -⟩ := h.of_run here₁ moved
    exact commented here₂ (further₁.trans further₂) ran
  · exact commented here₁ further₁ ran

/-- **So the rounds come to an end**, and more fuel than there are bytes makes no difference. -/
theorem skipBlanksWithin_eq {fuel fuel' : Nat} (here : sound cursor)
    (enough : bytes.size < Cursor.position cursor + fuel)
    (enough' : bytes.size < Cursor.position cursor + fuel') :
    (settings.skipBlanksWithin fuel).run cursor = (settings.skipBlanksWithin fuel').run cursor := by
  have inside := h.position_le_size here
  induction fuel generalizing fuel' cursor with
  | zero => omega
  | succ fuel ih =>
    obtain ⟨fuel', rfl⟩ : ∃ less, fuel' = less + 1 := ⟨fuel' - 1, by omega⟩
    rw [Settings.skipBlanksWithin_succ, Settings.skipBlanksWithin_succ]
    refine Scan.run_bind_congr rfl fun again cursor' ran => ?_
    cases again with
    | false => rfl
    | true =>
      have moved := h.skipRound here ran
      have here' := (h.of_run here ran).1
      exact ih here' (by omega) (by omega) (h.position_le_size here')

/-- Skipping, with any fuel that is enough. -/
theorem run_skipBlanks (fuel : Nat) (here : sound cursor)
    (enough : bytes.size < Cursor.position cursor + fuel) :
    settings.skipBlanks.run cursor = (settings.skipBlanksWithin fuel).run cursor := by
  have inside := h.position_le_size here
  rw [Settings.skipBlanks, Scan.run_bind_ok (Scan.run_left cursor), h.left_eq here]
  exact h.skipBlanksWithin_eq here (by omega) enough

/-- **Skipping is a loop without a bound.** -/
theorem run_skipBlanks_eq (here : sound cursor) :
    settings.skipBlanks.run cursor = (settings.skipRound >>= fun again =>
      if again then settings.skipBlanks else pure ()).run cursor := by
  have inside := h.position_le_size here
  rw [h.run_skipBlanks (bytes.size - Cursor.position cursor + 1) here (by omega),
    Settings.skipBlanksWithin_succ]
  refine Scan.run_bind_congr rfl fun again cursor' ran => ?_
  cases again with
  | false => rfl
  | true =>
    have moved := h.skipRound here ran
    have here' := (h.of_run here ran).1
    have inside' := h.position_le_size here'
    exact (h.run_skipBlanks _ here' (by omega)).symm

/-! ## Tokens -/

/-- **A token takes a byte**, whatever reads what is in a group. -/
theorem scanToken {depth : Nat} {inside : Scan (List Token)} {byte : UInt8} {token : Token}
    (here : sound cursor) (seen : (Scan.peek 0).run cursor = (.ok (some byte), cursor'))
    (read : (settings.scanToken depth inside byte).run cursor' = (.ok token, cursor'')) :
    Cursor.position cursor + 1 ≤ Cursor.position cursor'' := by
  obtain ⟨here', same, shown⟩ := h.peek here seen
  unfold Settings.scanToken at read
  split at read
  · unfold Settings.scanGroup at read
    split at read
    · exact absurd read Scan.not_ok_of_malformed
    · obtain ⟨_, cursor₁, opened, read⟩ := Scan.ok_of_run_bind read
      obtain ⟨here₁, position₁⟩ := h.advance here' opened
      have further := (h.of_run here₁ read).2.1
      omega
  · have there : bytes[Cursor.position cursor']? = some byte := same ▸ shown byte rfl
    obtain ⟨-, _, moved, -⟩ :=
      (h.footing.scanSimple settings there (Nat.zero_le 1)).of_sound here' read
    omega

/-- What is in a group is read further on. -/
theorem run_scanToken_congr {depth : Nat} {inside inside' : Scan (List Token)} {byte : UInt8}
    (here : sound cursor)
    (same : ∀ cursor', sound cursor' → Cursor.position cursor < Cursor.position cursor' →
      inside.run cursor' = inside'.run cursor') :
    (settings.scanToken depth inside byte).run cursor
      = (settings.scanToken depth inside' byte).run cursor := by
  unfold Settings.scanToken
  split
  · unfold Settings.scanGroup
    split
    · rfl
    · refine Scan.run_bind_congr rfl fun _ cursor₁ opened => ?_
      obtain ⟨here₁, position₁⟩ := h.advance here opened
      refine Scan.run_bind_congr rfl fun _ cursor₂ skipped => ?_
      obtain ⟨here₂, further₂, -⟩ := h.of_run here₁ skipped
      exact Scan.run_bind_congr (same cursor₂ here₂ (by omega)) fun _ _ _ => rfl
  · rfl

/-! ## Lists of tokens -/

/-- **A list is read by lists that are further on.** -/
theorem run_tokensVia_congr
    {lists lists' : (depth : Nat) → (before : List Token) → Scan (List Token)}
    {depth : Nat} {before : List Token} (here : sound cursor)
    (same : ∀ cursor', sound cursor' → Cursor.position cursor < Cursor.position cursor' →
      ∀ depth before, (lists depth before).run cursor' = (lists' depth before).run cursor') :
    (Scan.peek 0 >>= settings.tokensVia lists depth before).run cursor
      = (Scan.peek 0 >>= settings.tokensVia lists' depth before).run cursor := by
  refine Scan.run_bind_congr rfl fun found cursor₁ seen => ?_
  obtain ⟨here₁, position₁, -⟩ := h.peek here seen
  cases found with
  | none => rfl
  | some byte =>
    dsimp only [Settings.tokensVia]
    split
    · rfl
    · refine Scan.run_bind_congr ?_ fun token cursor₂ read => ?_
      · exact h.run_scanToken_congr here₁ fun cursor' here' further =>
          same cursor' here' (by omega) _ _
      · have here₂ := (h.of_run here₁ read).1
        have moved := h.scanToken here seen read
        refine Scan.run_bind_congr rfl fun _ cursor₃ skipped => ?_
        obtain ⟨here₃, further₃, -⟩ := h.of_run here₂ skipped
        exact same cursor₃ here₃ (by omega) _ _

/-- **So the recursion comes to an end**, and more fuel than there are bytes makes no difference. -/
theorem tokensWithin_eq {fuel fuel' depth : Nat} {before : List Token} (here : sound cursor)
    (enough : bytes.size < Cursor.position cursor + fuel)
    (enough' : bytes.size < Cursor.position cursor + fuel') :
    (settings.tokensWithin fuel depth before).run cursor
      = (settings.tokensWithin fuel' depth before).run cursor := by
  have inside := h.position_le_size here
  induction fuel generalizing fuel' cursor depth before with
  | zero => omega
  | succ fuel ih =>
    obtain ⟨fuel', rfl⟩ : ∃ less, fuel' = less + 1 := ⟨fuel' - 1, by omega⟩
    rw [Settings.tokensWithin_succ, Settings.tokensWithin_succ]
    refine h.run_tokensVia_congr here fun cursor' here' further depth before => ?_
    exact ih here' (by omega) (by omega) (h.position_le_size here')

/-- A list of tokens, with any fuel that is enough. -/
theorem run_tokens (fuel : Nat) {depth : Nat} {before : List Token} (here : sound cursor)
    (enough : bytes.size < Cursor.position cursor + fuel) :
    (settings.tokens depth before).run cursor
      = (settings.tokensWithin fuel depth before).run cursor := by
  have inside := h.position_le_size here
  rw [Settings.tokens, Scan.run_bind_ok (Scan.run_left cursor), h.left_eq here]
  exact h.tokensWithin_eq here (by omega) enough

/-- **Lists of tokens are read by recursion without a bound.** -/
theorem run_tokens_eq {depth : Nat} {before : List Token} (here : sound cursor) :
    (settings.tokens depth before).run cursor
      = (Scan.peek 0 >>= settings.tokensVia settings.tokens depth before).run cursor := by
  have inside := h.position_le_size here
  rw [h.run_tokens (bytes.size - Cursor.position cursor + 1) here (by omega),
    Settings.tokensWithin_succ]
  refine h.run_tokensVia_congr here fun cursor' here' further depth before => ?_
  have inside' := h.position_le_size here'
  exact (h.run_tokens _ here' (by omega)).symm

/-- **The lists that a list is read by are further on**, so they have less in front of them. -/
theorem left_lt_of_needs {inner outer : κ × Nat} (here : sound outer.1)
    (needs : settings.Needs inner outer) :
    bytes.size - Cursor.position inner.1 < bytes.size - Cursor.position outer.1 := by
  suffices sound inner.1 ∧ Cursor.position outer.1 < Cursor.position inner.1 by
    have inside := h.position_le_size this.1
    omega
  cases needs with
  | inside room seen opened skipped =>
    dsimp only at here ⊢
    obtain ⟨here₁, position₁, -⟩ := h.peek here seen
    obtain ⟨here₂, position₂⟩ := h.advance here₁ opened
    obtain ⟨here₃, further, -⟩ := h.of_run here₂ skipped
    exact ⟨here₃, by omega⟩
  | behind other seen read skipped =>
    dsimp only at here ⊢
    have moved := h.scanToken here seen read
    have here₂ := (h.of_run (h.peek here seen).1 read).1
    obtain ⟨here₃, further, -⟩ := h.of_run here₂ skipped
    exact ⟨here₃, by omega⟩

/-! ## Statements -/

/-- **A statement takes a byte.** -/
theorem scanStatement {statement : Statement} (here : sound cursor)
    (ran : settings.scanStatement.run cursor = (.ok (some statement), cursor')) :
    Cursor.position cursor + 1 ≤ Cursor.position cursor' := by
  obtain ⟨_, moved, rfl, -⟩ :=
    h.footing.scanStatement_moves h.again settings ⟨rfl, here⟩ (Nat.zero_le 1) ran
  exact moved

/-- **Where there is none, all that there is has been passed.** -/
theorem scanStatement_ended (here : sound cursor)
    (ran : settings.scanStatement.run cursor = (.ok none, cursor')) :
    Cursor.position cursor' = known cursor' ∧ told cursor' := by
  rw [Settings.scanStatement_eq] at ran
  obtain ⟨_, cursor₁, skipped, ran⟩ := Scan.ok_of_run_bind ran
  have here₁ := (h.of_run here skipped).1
  obtain ⟨ended, cursor₂, looked, ran⟩ := Scan.ok_of_run_bind ran
  obtain ⟨found, cursor₃, seen, returned⟩ := Scan.ok_of_run_bind looked
  rw [Scan.run_pure] at returned
  obtain ⟨ended_eq, rfl⟩ := Prod.mk.inj returned
  obtain rfl : found.isNone = ended := Except.ok.inj ended_eq
  cases found with
  | none =>
    rw [if_pos Option.isNone_none, Scan.run_pure] at ran
    obtain ⟨-, rfl⟩ := Prod.mk.inj ran
    exact h.unseen here₁ ((Scan.run_ask _ _).symm.trans seen)
  | some byte =>
    -- there would be a statement
    rw [Option.isNone_some, if_neg Bool.false_ne_true] at ran
    obtain ⟨_, _, -, ran⟩ := Scan.ok_of_run_bind ran
    rw [Scan.run_pure] at ran
    cases (Prod.mk.inj ran).1

end

end Advancing

/-! ## Calls for a statement -/

namespace Reader

variable [Cursor κ]

/-- How many of the first `count` calls for a statement hand one out. -/
def handedOut (count : Nat) (reader : Reader κ) : Nat :=
  (reader.transcript count).countP fun call => call.1.toOption.join.isSome

theorem handedOut_succ (count : Nat) (reader : Reader κ) :
    reader.handedOut (count + 1)
      = reader.next.2.handedOut count + if reader.next.1.toOption.join.isSome then 1 else 0 := by
  rw [handedOut, transcript, List.countP_cons]
  rfl

/-- A call for a statement moves the cursor by questions. -/
theorem becomes_after {start : κ} {reader : Reader κ} (h : Cursor.Becomes start reader.cursor)
    (count : Nat) : Cursor.Becomes start (reader.after count).cursor := by
  induction count generalizing reader with
  | zero => exact h
  | succ count ih =>
    refine ih ?_
    have after := h.run reader.settings.scanStatement
    unfold Reader.next
    split
    · exact h
    · split
      all_goals
        rename_i ran
        rwa [ran] at after

/-- **A reader makes headway**, wherever its cursor can come, and so its calls come to an end. -/
structure Progresses (size : Nat) (known : κ → Nat) (told : κ → Prop) (start : Reader κ) :
    Prop where
  /-- A cursor is where it knows of the input, and that is part of the input. -/
  position_le : ∀ cursor, Cursor.Becomes start.cursor cursor →
    Cursor.position cursor ≤ known cursor ∧ known cursor ≤ size
  /-- Calls move the cursor by questions only. -/
  becomes : ∀ count, Cursor.Becomes start.cursor (start.after count).cursor
  /-- A token takes a byte. -/
  token : ∀ cursor cursor' cursor'' depth inside byte token,
    Cursor.Becomes start.cursor cursor →
    (Scan.peek 0).run cursor = (.ok (some byte), cursor') →
    (start.settings.scanToken depth inside byte).run cursor' = (.ok token, cursor'') →
    Cursor.position cursor + 1 ≤ Cursor.position cursor''
  /-- A round of skipping that is not the last one takes two. -/
  round : ∀ cursor cursor', Cursor.Becomes start.cursor cursor →
    start.settings.skipRound.run cursor = (.ok true, cursor') →
    Cursor.position cursor + 2 ≤ Cursor.position cursor'
  /-- Skipping is a loop of such rounds, as many as there are. -/
  rounds : ∀ cursor, Cursor.Becomes start.cursor cursor →
    start.settings.skipBlanks.run cursor = (start.settings.skipRound >>= fun again =>
      if again then start.settings.skipBlanks else pure ()).run cursor
  /-- A list of tokens is read by lists that have less of the input in front of them. -/
  nested : ∀ inner outer, Cursor.Becomes start.cursor outer.1 → start.settings.Needs inner outer →
    size - Cursor.position inner.1 < size - Cursor.position outer.1
  /-- So no list is needed for itself, in however many steps. -/
  wellFounded : WellFounded fun
    inner outer : { list : κ × Nat // Cursor.Becomes start.cursor list.1 } =>
      start.settings.Needs inner.1 outer.1
  /-- Reading them is that recursion, as deep as it goes. -/
  lists : ∀ cursor, Cursor.Becomes start.cursor cursor → ∀ depth before,
    (start.settings.tokens depth before).run cursor
      = (Scan.peek 0 >>= start.settings.tokensVia start.settings.tokens depth before).run cursor
  /-- A statement that is handed out takes a byte. -/
  statement : ∀ count statement, (start.after count).next.1 = .ok (some statement) →
    (start.after count).position + 1 ≤ (start.after count).next.2.position
  /-- If there is none, and nothing has failed before, the reader has passed all that there is. -/
  ended : ∀ count, (∀ call ∈ start.transcript count, ∀ fault, call.1 ≠ .error fault) →
    (start.after count).next.1 = .ok none →
    let cursor := (start.after count).next.2.cursor
    Cursor.position cursor = known cursor ∧ told cursor
  /-- However many calls there are, no more of them hand out a statement than bytes have been
  passed, and so no more than there are. -/
  handedOut_le : ∀ count, start.handedOut count ≤ (start.after count).position
    ∧ (start.after count).position ≤ size

end Reader

namespace Advancing

variable [Cursor κ] {bytes : Array UInt8} {sound : κ → Prop} {known : κ → Nat} {told : κ → Prop}
  {reader : Reader κ}

section

variable (h : Advancing bytes sound known told)
include h

/-- Wherever a cursor comes it is sound. -/
theorem sound_of_becomes {start cursor : κ} (begins : sound start)
    (becomes : Cursor.Becomes start cursor) : sound cursor := by
  induction becomes with
  | start => exact begins
  | asked before query ih => exact h.kept query ih

/-- **A call for a statement** goes forward, by a byte at least if it hands one out. -/
theorem next (here : sound reader.cursor) :
    sound reader.next.2.cursor
      ∧ reader.position + (if reader.next.1.toOption.join.isSome then 1 else 0)
        ≤ reader.next.2.position := by
  unfold Reader.next
  split
  · exact ⟨here, le_rfl⟩
  · obtain ⟨after, further, -⟩ := h.run reader.settings.scanStatement here
    split
    · rename_i statement cursor ran
      rw [ran] at after
      exact ⟨after, h.scanStatement here ran⟩
    · rename_i outcome cursor other ran
      rw [ran] at after further
      refine ⟨after, ?_⟩
      rcases outcome with fault | _ | statement
      · exact further
      · exact further
      · exact absurd rfl (other statement)

/-- Any number of calls are like one. -/
theorem after (here : sound reader.cursor) (count : Nat) :
    sound (reader.after count).cursor
      ∧ reader.position + reader.handedOut count ≤ (reader.after count).position := by
  induction count generalizing reader with
  | zero => exact ⟨here, le_rfl⟩
  | succ count ih =>
    obtain ⟨here', further⟩ := h.next here
    obtain ⟨after, further'⟩ := ih here'
    refine ⟨after, le_trans ?_ further'⟩
    rw [Reader.handedOut_succ]
    omega

/-- **A call that does not fail** leaves the reader where all that there is has been passed, if
that is the last one. -/
theorem next_finished (here : sound reader.cursor)
    (finished : reader.finished = true →
      Cursor.position reader.cursor = known reader.cursor ∧ told reader.cursor)
    (clean : ∀ fault, reader.next.1 ≠ .error fault) (last : reader.next.2.finished = true) :
    Cursor.position reader.next.2.cursor = known reader.next.2.cursor
      ∧ told reader.next.2.cursor := by
  unfold Reader.next at clean last ⊢
  split at clean
  case isTrue done =>
    rw [if_pos done]
    exact finished done
  case isFalse going =>
    rw [if_neg going] at last ⊢
    rcases ran : reader.settings.scanStatement.run reader.cursor
      with ⟨fault | _ | statement, cursor⟩
    · rw [ran] at clean
      exact absurd rfl (clean fault)
    · exact h.scanStatement_ended here ran
    · rw [ran] at last
      exact absurd last going

/-- So the end is where all that there is has been passed, unless a call before it failed. -/
theorem ended {count : Nat} (here : sound reader.cursor)
    (finished : reader.finished = true →
      Cursor.position reader.cursor = known reader.cursor ∧ told reader.cursor)
    (clean : ∀ call ∈ reader.transcript count, ∀ fault, call.1 ≠ .error fault)
    (nothing : (reader.after count).next.1 = .ok none) :
    Cursor.position (reader.after count).next.2.cursor = known (reader.after count).next.2.cursor
      ∧ told (reader.after count).next.2.cursor := by
  induction count generalizing reader with
  | zero =>
    rw [Reader.after] at nothing ⊢
    refine h.next_finished here finished (fun fault => by simp [nothing]) ?_
    exact Reader.finished_of_next (Prod.ext nothing rfl) fun _ => nofun
  | succ count ih =>
    obtain ⟨first, others⟩ := List.forall_mem_cons.1 clean
    exact ih (h.next here).1 (h.next_finished here finished first) others nothing

/-- **Whoever reads with a cursor that goes forward makes headway.** -/
theorem progresses (begins : sound reader.cursor) (fresh : reader.finished = false) :
    reader.Progresses bytes.size known told where
  position_le cursor becomes :=
    have here := h.sound_of_becomes begins becomes
    ⟨h.position_le here, h.known_le here⟩
  becomes := Reader.becomes_after .start
  token cursor cursor' cursor'' depth inside byte token becomes seen read :=
    h.scanToken (h.sound_of_becomes begins becomes) seen read
  round cursor cursor' becomes ran := h.skipRound (h.sound_of_becomes begins becomes) ran
  rounds cursor becomes := h.run_skipBlanks_eq (h.sound_of_becomes begins becomes)
  nested inner outer becomes needs :=
    h.left_lt_of_needs (h.sound_of_becomes begins becomes) needs
  wellFounded := by
    refine Subrelation.wf ?_
      (measure fun list : { list : κ × Nat // Cursor.Becomes reader.cursor list.1 } =>
        bytes.size - Cursor.position list.1.1).wf
    intro inner outer needs
    exact h.left_lt_of_needs (h.sound_of_becomes begins outer.2) needs
  lists cursor becomes depth before := h.run_tokens_eq (h.sound_of_becomes begins becomes)
  statement count statement found := by
    have moved := (h.next (h.after begins count).1).2
    rwa [found] at moved
  ended count clean nothing :=
    h.ended begins (fun finished => absurd finished (by simp [fresh])) clean nothing
  handedOut_le count := by
    obtain ⟨there, further⟩ := h.after begins count
    exact ⟨le_trans (Nat.le_add_left _ _) further, h.position_le_size there⟩

end

end Advancing

/-- **Reading makes headway**, whatever the input is, whatever the settings are, and however a
source answers.

In memory the whole input is known. Over a source what it has given is known, and at the end it has
said that there is no more; that is all of the input unless it has said so too early. -/
theorem Reader.progresses_ofBytes_ofSource (bytes : Array UInt8) (script : List Reply)
    (settings : Settings) :
    (ofBytes bytes settings).Progresses bytes.size (fun _ => bytes.size) (fun _ => True)
      ∧ (ofSource { bytes, script } settings).Progresses bytes.size
          (fun cursor => cursor.window.source.given)
          (fun cursor => cursor.window.source.Ended
            ∧ (KeepsGiving bytes.size script → cursor.window.source.given = bytes.size)) :=
  ⟨(InMemory.advancing bytes).progresses ⟨rfl, Nat.zero_le _⟩ rfl,
    (Streaming.advancing bytes _).progresses (.ofSource bytes script settings.sizing) rfl⟩

/-- Two statements, of which one is a semicolon alone. The comment is ended by the end of the
input, and behind that a call hands out nothing. -/
example :
    (Reader.ofBytes (bytesOf "(a);; -- x")).handedOut 4 = 2
      ∧ ((Reader.ofBytes (bytesOf "(a);; -- x")).after 4).position = 10 := by
  decide +kernel

end TableDump
