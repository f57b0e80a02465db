import Mathlib
import TableDump.Proofs.Displacement
import TableDump.Proofs.Outlook

/-!
# A dump can be cut behind any statement

Behind each of its statements a dump can be cut in two, and what is read from the
pieces is what is read from the whole (`Reader.transcript_cut`). The first piece has
the statements up to there, and ends there. The second piece has all that comes
behind, a fault included, at places that count from the cut.

That the second piece is read so is no matter of statements: no reading looks back
(`Reader.transcript_displaced`). That the first one is, in spite of what its last
bytes no longer have behind them, is one: a statement ends with its semicolon, and
nothing in it looks further (`Grammar.IsStatement.of_rest`).

A reader that hands out some statements becomes another reader, and these two and
the statements are a relation (`Reader.Passes`). In memory it holds in front of any
bytes if it holds in front of some (`Reader.Passes.exists_split`), so the pieces and
the whole are passed over in the same way.
-/

namespace TableDump

open Grammar
open InMemory (between)

namespace Reader

section

variable {κ : Type} [Cursor κ] {reader reader' : Reader κ} {statement : Statement} {place : Nat}
  {passed : List (Statement × Nat)}

/-- **A reader that hands out some statements becomes another one.** With each
statement stands the place where it leaves the reader. -/
inductive Passes : Reader κ → List (Statement × Nat) → Reader κ → Prop where
  | nothing {reader : Reader κ} : Passes reader [] reader
  | next {reader mid reader' : Reader κ} {statement : Statement} {place : Nat}
      {others : List (Statement × Nat)} (here : reader.next = (.ok (some statement), mid))
      (there : mid.position = place) (further : Passes mid others reader') :
      Passes reader ((statement, place) :: others) reader'

/-- What a call gives that hands out a statement, and where it leaves the reader. -/
def handed (entry : Statement × Nat) : Except Fault (Option Statement) × Nat :=
  (.ok (some entry.1), entry.2)

namespace Passes

/-- The statements are what the calls give first. -/
theorem transcript_add (h : Passes reader passed reader') (more : Nat) :
    reader.transcript (passed.length + more) = passed.map handed ++ reader'.transcript more := by
  induction h with
  | nothing => rw [List.length_nil, Nat.zero_add, List.map_nil, List.nil_append]
  | @next reader mid reader' statement place others here there further ih =>
    rw [List.length_cons, Nat.add_right_comm, transcript, here, ← there]
    exact congrArg (_ :: ·) ih

/-- And they come first in the course of the reading. -/
theorem course (h : Passes reader passed reader') {statements : List Statement}
    {ending : Except Fault Unit} (behind : reader'.Course statements ending) :
    reader.Course (passed.map Prod.fst ++ statements) ending := by
  induction h with
  | nothing => exact behind
  | next here _ _ ih => exact .read here (ih behind)

/-- **A call that hands out a statement comes behind others that do.** -/
theorem of_transcript {count : Nat}
    (last : (reader.transcript (count + 1)).getLast? = some (.ok (some statement), place)) :
    ∃ passed reader', Passes reader passed reader' ∧ passed.length = count + 1
      ∧ reader'.position = place := by
  induction count generalizing reader with
  | zero =>
    obtain ⟨found, position_eq⟩ := Prod.mk.inj (Option.some.inj last)
    exact ⟨_, _, .next (Prod.ext found rfl) position_eq .nothing, rfl, position_eq⟩
  | succ count ih =>
    rw [transcript, transcript, List.getLast?_cons_cons, ← transcript] at last
    rcases here : reader.next with ⟨found, mid⟩
    rw [here] at last
    by_cases gave : ∃ statement, found = .ok (some statement)
    · obtain ⟨statement, rfl⟩ := gave
      obtain ⟨passed, reader', further, length_eq, position_eq⟩ := ih last
      exact ⟨_, reader', .next here rfl further, congrArg (· + 1) length_eq, position_eq⟩
    · -- behind the end nothing would be handed out
      have finished := finished_of_next here fun statement same => gave ⟨statement, same⟩
      exact absurd ⟨_, _, List.mem_of_getLast? last⟩ (not_emits_of_finished finished statement)

end Passes

end

/-! ## In memory -/

variable {settings : Settings} {before input : Bytes} {counted : Nat}

/-- **One statement**, in front of any other bytes than those that follow it. If
none do, it may need the end of the input. -/
theorem exists_split_of_next {statement : Statement} {reader : Reader InMemory}
    (here : next { cursor := between before input, settings, statements := counted }
      = (.ok (some statement), reader)) :
    ∃ source rest, input = source ++ rest ∧ ([ascii ';'] <:+ source ∨ rest = [])
      ∧ reader = { cursor := between (before ++ source) rest, settings, statements := counted + 1 }
      ∧ ∀ rest', (rest = [] → rest' = []) →
        next { cursor := between before (source ++ rest'), settings, statements := counted }
          = (.ok (some statement),
            { cursor := between (before ++ source) rest', settings,
              statements := counted + 1 }) := by
  have recognizes := settings.recognizes_scanStatement before
  rcases ran : settings.scanStatement.run (between before input) with ⟨outcome, cursor⟩
  rw [next, ran] at here
  obtain rfl : outcome = .ok (some statement) := by
    rcases outcome with fault | _ | found
    all_goals
      obtain ⟨⟨⟩, -⟩ := Prod.mk.inj here
    rfl
  obtain ⟨-, rfl⟩ := Prod.mk.inj here
  obtain ⟨_, rest, split, ⟨absurd, -⟩ | ⟨_, blanks, source, ⟨⟩, rfl, leading, first⟩, rfl⟩ :=
    (recognizes input (some statement) cursor).1 ran
  · simp at absurd
  · refine ⟨blanks ++ source, rest, split, ?_, rfl, fun rest' last => ?_⟩
    · exact first.semicolon_or_nil.imp_left fun ends => ends.trans (List.suffix_append _ _)
    · have leading' : Blanks blanks (source ++ rest') :=
        leading.of_ne_nil (List.append_ne_nil_of_left_ne_nil first.ne_nil rest)
      have ran' : settings.scanStatement.run (between before (blanks ++ source ++ rest'))
          = (.ok (some statement), between (before ++ (blanks ++ source)) rest') :=
        (recognizes _ _ _).2 ⟨blanks ++ source, rest', rfl,
          .inr ⟨statement, blanks, source, rfl, rfl, leading', first.of_rest last⟩, rfl⟩
      rw [next, ran']
      rfl

/-- **Some statements**, in front of any other bytes. -/
theorem Passes.exists_split {passed : List (Statement × Nat)} {reader : Reader InMemory}
    (h : Passes { cursor := between before input, settings, statements := counted } passed
      reader) :
    ∃ source rest, input = source ++ rest
      ∧ ([ascii ';'] <:+ source ∨ rest = [] ∨ source = [] ∧ passed = [])
      ∧ reader = { cursor := between (before ++ source) rest, settings,
                   statements := counted + passed.length }
      ∧ ∀ rest', (rest = [] → rest' = []) →
        Passes { cursor := between before (source ++ rest'), settings, statements := counted }
          passed { cursor := between (before ++ source) rest', settings,
                   statements := counted + passed.length } := by
  generalize start : ({ cursor := between before input, settings,
                        statements := counted } : Reader InMemory) = reader' at h
  induction h generalizing before input counted with
  | nothing =>
    subst start
    refine ⟨[], input, rfl, .inr (.inr ⟨rfl, rfl⟩), ?_, fun rest' _ => ?_⟩ <;>
      rw [List.append_nil]
    · rfl
    · exact .nothing
  | @next _ mid reader statement place others here there further ih =>
    subst start
    obtain ⟨source, behind, rfl, ends, rfl, alike⟩ := exists_split_of_next here
    obtain ⟨more, rest, rfl, ends', rfl, alike'⟩ := ih rfl
    have counted_eq : counted + 1 + others.length
        = counted + ((statement, place) :: others).length :=
      Nat.add_right_comm counted 1 others.length
    refine ⟨source ++ more, rest, by rw [List.append_assoc], ?_, ?_, fun rest' last => ?_⟩
    · rcases ends' with semicolon | rfl | ⟨rfl, rfl⟩
      · exact .inl (semicolon.trans (List.suffix_append source more))
      · exact .inr (.inl rfl)
      · rw [List.append_nil]
        exact ends.imp_right .inl
    · rw [← List.append_assoc, counted_eq]
    · have first := alike (more ++ rest') fun none => by
        obtain ⟨rfl, none⟩ := List.append_eq_nil_iff.1 none
        exact last none
      have others := alike' rest' last
      rw [counted_eq, List.append_assoc] at others
      rw [List.append_assoc]
      exact .next first there others

/-- **A cut behind a statement.** When a call has handed out a statement, the calls
before have done so too. They do it for all the bytes, and also for those up to the
place where the reader is then. -/
theorem exists_cut {bytes : Array UInt8} {count : Nat} {statement : Statement} {place : Nat}
    (boundary : ((ofBytes bytes settings).transcript (count + 1)).getLast?
      = some (.ok (some statement), place)) :
    ∃ passed source rest, passed.length = count + 1 ∧ source.length = place
      ∧ bytes.toList = source ++ rest ∧ ([ascii ';'] <:+ source ∨ rest = [])
      ∧ ∀ rest', rest' = rest ∨ rest' = [] →
        Passes (ofBytes (source ++ rest').toArray settings) passed
          { cursor := between source rest', settings, statements := 0 + passed.length } := by
  obtain ⟨passed, reader, passes, length_eq, rfl⟩ := Passes.of_transcript boundary
  have start : Passes { cursor := between [] bytes.toList, settings, statements := 0 } passed
    reader := passes
  obtain ⟨source, rest, split, ends, rfl, alike⟩ := start.exists_split
  refine ⟨passed, source, rest, length_eq, rfl, split, ?_, ?_⟩
  · rcases ends with semicolon | none | ⟨-, rfl⟩
    · exact .inl semicolon
    · exact .inr none
    · exact absurd length_eq (Nat.succ_ne_zero count).symm
  · rintro rest' (rfl | rfl)
    · exact alike rest' id
    · exact alike [] fun _ => rfl

/-- Where the input ends, nothing is left to be handed out. -/
theorem transcript_of_nil (before : Bytes) (counted : Nat) (more : Nat) :
    transcript more { cursor := between before [], settings, statements := counted }
      = List.replicate more (.ok none, before.length) := by
  have ended : settings.scanStatement.run (between before []) = (.ok none, between before []) :=
    (settings.recognizes_scanStatement before [] none _).2
      ⟨[], [], rfl, .inl ⟨rfl, rfl, .nil⟩, by rw [List.append_nil]⟩
  cases more with
  | zero => rfl
  | succ more =>
    rw [transcript, next, ended]
    exact congrArg (_ :: ·) (transcript_of_finished rfl more)

/-- **A dump can be cut behind any of its statements.** When a call has handed out a
statement, the calls before have done so too. The bytes up to the place where the
reader is then are read as the same statements, at the same places, and nothing
behind them. The bytes from there on are read as the whole dump is read on, whatever
that comes to, at places that count from the cut. And the cut is at the end of the
dump, or just behind a semicolon. -/
theorem transcript_cut (bytes : Array UInt8) (settings : Settings) {count : Nat}
    {statement : Statement} {place : Nat}
    (boundary : ((ofBytes bytes settings).transcript (count + 1)).getLast?
      = some (.ok (some statement), place)) :
    ∃ passed : List (Statement × Nat), passed.length = count + 1
      ∧ (∀ more, (ofBytes (bytes.extract 0 place) settings).transcript (count + 1 + more)
          = passed.map handed ++ List.replicate more (.ok none, place))
      ∧ (∀ more, (ofBytes bytes settings).transcript (count + 1 + more)
          = passed.map handed
            ++ ((ofBytes (bytes.extract place) settings).transcript more).map (displaced place))
      ∧ (place = bytes.size ∨ ∃ last, place = last + 1 ∧ bytes[last]? = some (ascii ';')) := by
  obtain ⟨passed, source, rest, length_eq, rfl, split, ends, passes⟩ := exists_cut boundary
  have whole_eq : (source ++ rest).toArray = bytes := by rw [← split, Array.toArray_toList]
  have front_eq : (source ++ []).toArray = bytes.extract 0 source.length := by
    rw [List.append_nil, ← Array.toList_inj, Array.toList_extract, split]
    exact List.take_left.symm
  have back_eq : rest.toArray = bytes.extract source.length := by
    have size_eq : bytes.size = source.length + rest.length := by
      rw [← Array.length_toList, split, List.length_append]
    rw [← Array.toList_inj, Array.toList_extract, split, size_eq, List.extract_eq_take_drop,
      Nat.add_sub_cancel_left, List.drop_left, List.take_length]
  refine ⟨passed, length_eq, fun more => ?_, fun more => ?_, ?_⟩
  · rw [← front_eq, ← length_eq, (passes [] (.inr rfl)).transcript_add more,
      transcript_of_nil source _ more]
  · have back := transcript_displaced settings source more [] rest (0 + passed.length) 0 false
    rw [List.append_nil] at back
    rw [← back_eq, ← length_eq]
    nth_rewrite 1 [← whole_eq]
    exact ((passes rest (.inl rfl)).transcript_add more).trans (congrArg _ back)
  · rcases ends with ⟨front, rfl⟩ | rfl
    · refine .inr ⟨front.length, List.length_append, ?_⟩
      rw [← Array.getElem?_toList, split, List.append_assoc, List.getElem?_append_right le_rfl,
        Nat.sub_self]
      rfl
    · left
      rw [← Array.length_toList, split, List.append_nil]

/-- A semicolon in a text, and one that ends the statement. Behind it a group is left
open. -/
theorem transcript_cut_text :
    let bytes := bytesOf "';';("
    ((ofBytes bytes).transcript 1).getLast? = some (.ok (some ⟨[.text ";"]⟩), 4)
      ∧ ∃ passed : List (Statement × Nat), passed.length = 1
        ∧ (∀ more, (ofBytes (bytes.extract 0 4)).transcript (1 + more)
            = passed.map handed ++ List.replicate more (.ok none, 4))
        ∧ (∀ more, (ofBytes bytes).transcript (1 + more)
            = passed.map handed ++ ((ofBytes (bytes.extract 4)).transcript more).map (displaced 4))
        ∧ (4 = bytes.size ∨ ∃ last, 4 = last + 1 ∧ bytes[last]? = some (ascii ';')) := by
  intro bytes
  have boundary : ((ofBytes bytes).transcript 1).getLast?
      = some (.ok (some ⟨[.text ";"]⟩), 4) := by cbv
  exact ⟨boundary, transcript_cut bytes {} boundary⟩

end Reader

end TableDump
