import Mathlib
import TableDump.Proofs.BoundedWindow
import TableDump.Proofs.Course

/-!
# Every reader comes to an end

A reader is asked for one statement after the other until there is none, or until reading
fails. The loops that do so are bounded by what the cursor has in front of it, and the bound is
never met: a statement takes a byte at least (`Footing.scanStatement_moves`). So a reader has a
course, whatever its source is like (`Reader.Poised.exists_course`). It may fail at any request,
and it may say too early that there is no more.

That a statement takes a byte is not quite a matter of course. The reader looks whether there
is a byte before it begins with a statement, and begins by looking again. If nothing could be
seen then, there would be a statement without tokens, and another one in the same place when the
next is asked for. But a cursor that has shown a byte shows it again (`ShowsAgain`): the window
has not released it, and does not ask the source for it once more.
-/

namespace TableDump

/-! ## Looking twice -/

/-- **A cursor that has shown a byte shows it again.** -/
def ShowsAgain (κ : Type) [Cursor κ] : Prop :=
  ∀ {offset : Nat} {byte : UInt8} {cursor cursor' : κ},
    Cursor.answer (.peek offset) cursor = (.ok (some byte), cursor') →
      ∃ cursor'', Cursor.answer (.peek offset) cursor' = (.ok (some byte), cursor'')

theorem InMemory.showsAgain : ShowsAgain InMemory := by
  intro offset byte memory memory' seen
  obtain rfl : memory = memory' := (Prod.mk.inj seen).2
  exact ⟨memory, seen⟩

/-- What is available stays available. -/
theorem Window.byteAt_again {window window' : Window} {index : Nat} {byte : UInt8}
    (seen : window.byteAt index = (.ok (some byte), window')) :
    window'.byteAt index = (.ok (some byte), window') := by
  have floor_eq := (asked_byteAt seen).floor_eq
  unfold byteAt at seen ⊢
  rw [floor_eq]
  split at seen
  case isTrue => cases (Prod.mk.inj seen).1
  case isFalse kept =>
    rw [if_neg kept]
    split at seen
    case h_1 => cases (Prod.mk.inj seen).1
    case h_2 => cases (Prod.mk.inj seen).1
    case h_3 ensured =>
      obtain ⟨found, rfl⟩ := Prod.mk.inj seen
      have enough : ¬ Window.buffered _ < index + 1 := Nat.not_lt.2 (le_of_ensure ensured)
      rw [ensure, if_neg enough]
      exact Prod.ext found rfl

theorem Streaming.showsAgain : ShowsAgain Streaming := by
  intro offset byte stream stream' seen
  rcases looked : stream.window.byteAt (stream.position + offset) with ⟨outcome, window⟩
  have answered : stream.answer (.peek offset) = (outcome, stream.withWindow window) := by
    rw [answer, looked]
  obtain ⟨rfl, rfl⟩ := Prod.mk.inj (answered.symm.trans seen)
  refine ⟨stream.withWindow window, ?_⟩
  show answer _ _ = _
  rw [answer]
  have again : (stream.withWindow window).window.byteAt ((stream.withWindow window).position + offset)
      = (.ok (some byte), window) := Window.byteAt_again looked
  rw [again]
  rfl

namespace Footing

variable {κ : Type} [Cursor κ] {bytes : Array UInt8} {stands : (place reach : Nat) → κ → Prop}
  {place reach : Nat} {cursor cursor' : κ}

/-- What is read from a byte on, be it a closing mark or a token, takes a byte. -/
theorem tokens_behind (h : Footing bytes stands) (settings : Settings) {fuel depth : Nat}
    {found : List Token} {byte : UInt8} (here : bytes[place]? = some byte)
    (enough : bytes.size ≤ place + fuel) (near : reach ≤ 1)
    (hfound : ∀ token ∈ found, Canonical (settings.maxDepth - depth) token) :
    (do
      if byte == ascii (Settings.closing depth) then
        Scan.advance 1
        return found.reverse
      else
        let token ←
          if byte == ascii '(' then
            settings.scanGroup depth (settings.tokensWithin fuel (depth + 1) [])
          else settings.scanSimple byte
        settings.skipBlanks
        settings.tokensWithin fuel depth (token :: found) : Scan (List Token)).Arrives stands place
      reach fun _ place' reach' => place < place' ∧ reach' = 0 := by
  split
  case isTrue =>
    refine .bind (h.advance 1) ?_
    rintro _ _ reach' ⟨rfl, back⟩
    exact .pure ⟨Nat.lt_succ_self _, by omega⟩
  case isFalse =>
    have further : ∀ {scan : Scan Token},
        (scan.Arrives stands place reach fun token place' reach' =>
          place < place' ∧ reach' ≤ 1 ∧ Canonical (settings.maxDepth - depth) token) →
        (scan >>= fun token => settings.skipBlanks >>= fun _ =>
          settings.tokensWithin fuel depth (token :: found)).Arrives stands place reach
            fun _ place' reach' => place < place' ∧ reach' = 0 := by
      intro scan hscan
      refine .bind hscan ?_
      rintro token place₁ reach₁ ⟨on₁, near₁, canonical⟩
      refine .bind (h.skipBlanks settings near₁) ?_
      rintro _ place₂ reach₂ ⟨on₂, near₂⟩
      refine (h.tokensWithin settings (by omega) near₂
        (List.forall_mem_cons.2 ⟨canonical, hfound⟩)).mono ?_
      rintro tokens place₃ reach₃ ⟨on₃, reach_eq, -⟩
      exact ⟨by omega, reach_eq⟩
    split
    · refine further (h.scanGroup settings near fun place₁ reach₁ on₁ near₁ => ?_)
      exact h.tokensWithin settings (by omega) near₁ (List.forall_mem_nil _)
    · refine further ((h.scanSimple settings here near).mono ?_)
      rintro token place₁ reach₁ ⟨on₁, near₁, simple⟩
      exact ⟨on₁, near₁, .simple simple⟩

/-- **A statement takes a byte.** -/
theorem scanStatement_moves (h : Footing bytes stands) (again : ShowsAgain κ)
    (settings : Settings) {statement : Statement} (standing : stands place reach cursor)
    (near : reach ≤ 1)
    (ran : settings.scanStatement.run cursor = (.ok (some statement), cursor')) :
    ∃ place', place < place' ∧ stands place' 0 cursor' := by
  obtain ⟨_, cursor₁, skipped, ran⟩ := Scan.ok_of_run_bind ran
  obtain ⟨place₁, reach₁, standing₁, on₁, near₁⟩ :=
    h.skipBlanks settings near _ _ _ standing skipped
  obtain ⟨ended, cursor₂, looked, ran⟩ := Scan.ok_of_run_bind ran
  obtain ⟨seen?, _, seen, returned⟩ := Scan.ok_of_run_bind looked
  rw [Scan.run_pure] at returned
  obtain ⟨ended_eq, rfl⟩ := Prod.mk.inj returned
  obtain rfl : seen?.isNone = ended := Except.ok.inj ended_eq
  obtain ⟨place₂, reach₂, standing₂, rfl, told⟩ := h.peek 0 _ _ _ standing₁ seen
  cases seen? with
  | none =>
    rw [if_pos Option.isNone_none, Scan.run_pure] at ran
    cases (Prod.mk.inj ran).1
  | some byte =>
    rw [Option.isNone_some, if_neg Bool.false_ne_true] at ran
    obtain ⟨left, _, here, ran⟩ := Scan.ok_of_run_bind ran
    rw [Scan.run_left] at here
    obtain ⟨left_eq, rfl⟩ := Prod.mk.inj here
    obtain rfl : Cursor.left _ = left := Except.ok.inj left_eq
    obtain ⟨tokens, _, inside, returned⟩ := Scan.ok_of_run_bind ran
    obtain ⟨-, rfl⟩ := Prod.mk.inj ((Scan.run_pure _ _).symm.trans returned)
    -- the list of tokens begins with another look
    rw [Settings.tokensWithin] at inside
    obtain ⟨seen', cursor₃, looked', inside⟩ := Scan.ok_of_run_bind inside
    obtain ⟨_, shown⟩ := again ((Scan.run_ask (.peek 0) _).symm.trans seen)
    obtain rfl : seen' = some byte := Except.ok.inj
      (Prod.mk.inj ((looked'.symm.trans (Scan.run_ask (.peek 0) _)).trans shown)).1
    obtain ⟨place₃, reach₃, standing₃, rfl, near₃, there⟩ := h.peek 0 _ _ _ standing₂ looked'
    have left_eq := h.left_eq standing₂
    obtain ⟨place', _, standing', moved, rfl⟩ := h.tokens_behind settings there (by omega)
      (by omega) (List.forall_mem_nil _) _ _ _ standing₃ inside
    exact ⟨place', by omega, standing'⟩

end Footing

namespace Reader

variable {κ : Type} [Cursor κ] {bytes : Array UInt8} {stands : (place reach : Nat) → κ → Prop}
  {settings : Settings} {reader reader' : Reader κ}

/-- **A reader that hands out a statement has less in front of it.** -/
theorem Poised.left_lt (h : reader.Poised stands settings) (footing : Footing bytes stands)
    (again : ShowsAgain κ) {statement : Statement}
    (here : reader.next = (.ok (some statement), reader')) :
    Cursor.left reader'.cursor < Cursor.left reader.cursor := by
  obtain ⟨place, standing⟩ := h.stands
  unfold Reader.next at here
  split at here
  · cases (Prod.mk.inj here).1
  · split at here
    · rename_i found cursor ran
      obtain ⟨-, rfl⟩ := Prod.mk.inj here
      obtain ⟨place', moved, standing'⟩ :=
        footing.scanStatement_moves again reader.settings standing (Nat.zero_le 1) ran
      have inside := footing.place_le standing'
      rw [footing.left_eq standing, footing.left_eq standing']
      omega
    · rename_i outcome cursor other ran
      obtain ⟨rfl, -⟩ := Prod.mk.inj here
      exact absurd rfl (other statement)

/-- **Every reader comes to an end**, and has handed out no more statements by then than it had
bytes in front of it. -/
theorem Poised.exists_course (h : reader.Poised stands settings) (footing : Footing bytes stands)
    (again : ShowsAgain κ) :
    ∃ statements ending, reader.Course statements ending
      ∧ statements.length ≤ Cursor.left reader.cursor := by
  induction less : Cursor.left reader.cursor using Nat.strong_induction_on
    generalizing reader with
  | h left ih =>
    rcases here : reader.next with ⟨fault | _ | statement, later⟩
    · exact ⟨[], .error fault, .failed here, Nat.zero_le _⟩
    · exact ⟨[], .ok (), .ended here, Nat.zero_le _⟩
    · have moved := h.left_lt footing again here
      rw [less] at moved
      obtain ⟨statements, ending, course, bound⟩ :=
        ih _ moved (h.next footing here).1 rfl
      refine ⟨statement :: statements, ending, .read here course, ?_⟩
      rw [List.length_cons]
      omega

end Reader

end TableDump
