import Mathlib
import TableDump.Proofs.Calls
import TableDump.Proofs.Lexemes

/-!
# A quoted text, byte by byte

The reading of a quoted text jumps: it searches for the next byte that is a quote or a backslash,
takes all bytes before it in one piece, and looks at the byte behind a backslash by itself. A
decoder that knows nothing of searches reads one byte after the other and is in one of two states
(`Unquoting.State`): either the byte stands for itself, or it stands behind a backslash. Both come to
the same (`Settings.run_scanText_eq`), whatever the bytes are, how the backslashes among them are
distributed, and where a source has cut them into pieces.

The grammar is between the two. The inside of a quoted text is derived by rules for single bytes, so
the decoder follows a derivation rule by rule (`Unquoting.decode_of_quoted`), and what it has decoded
gives a derivation back (`Unquoting.exists_quoted`).
-/

namespace TableDump

open Grammar
open InMemory (between)

/-! ## The decoder -/

namespace Unquoting

/-- **The states of the decoder.** -/
inductive State where
  /-- A byte stands for itself here, unless it is a mark. -/
  | plain
  /-- The byte before was a backslash. -/
  | escaped
  deriving DecidableEq, Repr

/-- What a byte does to the decoder. -/
inductive Move where
  /-- It ends the text. -/
  | close
  /-- It makes the decoder write some bytes and go on in a state. -/
  | go (written : Bytes) (state : State)
  deriving DecidableEq, Repr

/-- **One byte is read.** -/
def move (quote : UInt8) : State → UInt8 → Move
  | .plain, byte =>
    if byte = quote then .close
    else if byte = ascii '\\' then .go [] .escaped
    else .go [byte] .plain
  | .escaped, byte => .go [escaped byte] .plain

/-- **All that is written** until the text ends, and how many bytes have been read then. There is
no text if the bytes end first. -/
def decode (quote : UInt8) : State → Bytes → Option (Bytes × Nat)
  | _, [] => none
  | state, byte :: rest =>
    match move quote state byte with
    | .close => some ([], 1)
    | .go written state =>
      (decode quote state rest).map fun (content, count) => (written ++ content, count + 1)

variable {quote : UInt8} {source content tail rest : Bytes} {count : Nat}

/-- **The inside of a quoted text is decoded** up to the quote that closes it. -/
theorem decode_of_quoted (other : quote ≠ ascii '\\') (h : Quoted quote source content)
    (rest : Bytes) :
    decode quote .plain (source ++ quote :: rest) = some (content, source.length + 1) := by
  induction h with
  | nil => rw [List.nil_append, decode, move, if_pos rfl, List.length_nil]
  | plain quote_ne backslash_ne _ ih =>
    rw [List.cons_append, decode, move, if_neg quote_ne, if_neg backslash_ne]
    dsimp only
    rw [ih]
    rfl
  | escape _ ih =>
    rw [List.cons_append, decode, move, if_neg other.symm, if_pos rfl]
    dsimp only
    rw [List.cons_append, decode, move]
    dsimp only
    rw [ih]
    rfl

/-- **What is decoded was the inside of a quoted text**, behind the byte that is escaped, if the
decoder starts with one. -/
theorem exists_quoted {state : State} (h : decode quote state tail = some (content, count)) :
    match state with
    | .plain => ∃ source rest, tail = source ++ quote :: rest ∧ count = source.length + 1
      ∧ Quoted quote source content
    | .escaped => ∃ byte source rest content', tail = byte :: source ++ quote :: rest
      ∧ content = escaped byte :: content' ∧ count = source.length + 2
      ∧ Quoted quote source content' := by
  induction tail generalizing state content count with
  | nil => cases h
  | cons byte tail ih =>
    rw [decode] at h
    cases state with
    | plain =>
      rw [move] at h
      split_ifs at h with closes escapes
      · obtain ⟨rfl, rfl⟩ := Prod.mk.inj (Option.some.inj h)
        exact ⟨[], tail, by rw [closes]; rfl, rfl, .nil⟩
      · obtain ⟨⟨content, count⟩, further, same⟩ := Option.map_eq_some_iff.1 h
        obtain ⟨rfl, rfl⟩ := Prod.mk.inj same
        obtain ⟨byte', source, rest, content', rfl, rfl, rfl, inside⟩ := ih further
        exact ⟨byte :: byte' :: source, rest, rfl, rfl, escapes ▸ .escape inside⟩
      · obtain ⟨⟨content, count⟩, further, same⟩ := Option.map_eq_some_iff.1 h
        obtain ⟨rfl, rfl⟩ := Prod.mk.inj same
        obtain ⟨source, rest, rfl, rfl, inside⟩ := ih further
        exact ⟨byte :: source, rest, rfl, rfl, .plain closes escapes inside⟩
    | escaped =>
      obtain ⟨⟨content, count⟩, further, same⟩ := Option.map_eq_some_iff.1 h
      obtain ⟨rfl, rfl⟩ := Prod.mk.inj same
      obtain ⟨source, rest, rfl, rfl, inside⟩ := ih further
      exact ⟨byte, source, rest, content, rfl, rfl, rfl, inside⟩

/-- The decoder comes to an end if the text does. -/
theorem decode_eq_none (other : quote ≠ ascii '\\') (h : decode quote .plain tail = none)
    (source content rest : Bytes) (split : tail = source ++ quote :: rest) :
    ¬ Quoted quote source content := by
  intro inside
  rw [split, decode_of_quoted other inside rest] at h
  cases h

end Unquoting

/-! ## Cursors over reliable sources -/

/-- A call asks sensible questions only. -/
theorem Call.asks (call : Call) : call.scan.Asks Query.Sensible := by
  by_cases excerpt : ∃ count, call = .excerpt count
  · obtain ⟨count, rfl⟩ := excerpt
    exact Scan.asks_bind (Scan.asks_ask trivial) fun _ => Scan.asks_pure _
  · exact Call.of_parts (Settings.Compositional.asks {}) (not_exists.1 excerpt)

/-- **After any calls** a cursor over a reliable source stands somewhere in the input, and its
source is still reliable. -/
theorem Streaming.Mirrors.reliable_after {stream : Streaming} {memory : InMemory}
    (h : stream.Mirrors memory) (reliable : stream.window.source.Reliable) (calls : List Call) :
    ∃ position, (stream.after calls).Mirrors { memory with position }
      ∧ (stream.after calls).window.source.Reliable := by
  induction calls generalizing stream memory with
  | nil => exact ⟨memory.position, h, reliable⟩
  | cons call calls ih =>
    rw [Streaming.after]
    split
    case h_1 => exact ⟨memory.position, h, reliable⟩
    case h_2 ran =>
      obtain ⟨-, mirrors, reliable⟩ := Streaming.lockstep.run call.asks ⟨h, reliable⟩
      rw [Scan.run_of_run? ran] at mirrors reliable
      obtain ⟨position, there⟩ := ih mirrors reliable
      rw [memory.bytes_run call.scan] at there
      exact ⟨position, there⟩

/-! ## The reading of a text -/

namespace Settings

variable (settings : Settings)

/-- **What the decoder says about a text** whose quote stands behind `front`: its content, decoded,
and the place just behind the quote that closes it, or that there is none. -/
def unquoted (mark : Char) (front tail : Bytes) : Except Fault Token × Nat :=
  match Unquoting.decode (ascii mark) .plain tail with
  | some (content, count) => (.ok (.text (Utf8.decode content)), front.length + 1 + count)
  | none =>
    (.error (settings.faultAt (.unterminatedString mark) front (ascii mark :: tail)), front.length)

/-- In memory a text is read as it is decoded. -/
theorem run_scanText_between {mark : Char} (isQuote : mark = '\x27' ∨ mark = '"')
    (front tail : Bytes) :
    let ran := (settings.scanText (ascii mark)).run (between front (ascii mark :: tail))
    (ran.1, ran.2.position) = settings.unquoted mark front tail := by
  have isQuote' : ascii mark = ascii '\x27' ∨ ascii mark = ascii '"' :=
    isQuote.imp (congrArg ascii) (congrArg ascii)
  have other := quote_ne_backslash isQuote'
  have named : Char.ofNat (ascii mark).toNat = mark := by
    rcases isQuote with rfl | rfl <;> rfl
  dsimp only
  unfold unquoted
  rcases decoded : Unquoting.decode (ascii mark) .plain tail with _ | ⟨content, count⟩
  · rw [settings.run_scanText_open front isQuote' (Unquoting.decode_eq_none other decoded), named]
    rfl
  · obtain ⟨source, rest, rfl, rfl, inside⟩ := Unquoting.exists_quoted decoded
    have split : ascii mark :: (source ++ ascii mark :: rest)
        = ascii mark :: (source ++ [ascii mark]) ++ rest := by
      simp
    rw [split, settings.run_scanText other inside]
    refine Prod.ext rfl ?_
    show (front ++ ascii mark :: (source ++ [ascii mark])).length
      = front.length + 1 + (source.length + 1)
    simp only [List.length_append, List.length_cons, List.length_nil]
    omega

/-- **A quoted text is read as it is decoded, byte by byte.** Some bytes have a quote behind `front`,
of either kind, and whatever comes behind it. The reading of a text succeeds there if the decoder
comes to the end of one, with the text that its bytes are and at the place behind the closing quote;
and else it fails, because there is none, and stays at the quote. That is so in memory, and after
any calls to a cursor over a source that gives the same bytes, in pieces of any size, and does not
fail except to interrupt. -/
theorem run_scanText_eq {mark : Char} (isQuote : mark = '\x27' ∨ mark = '"')
    (front tail : Bytes) :
    let bytes := (front ++ ascii mark :: tail).toArray
    let scan := settings.scanText (ascii mark)
    let memory := scan.run (InMemory.mk bytes front.length)
    (memory.1, memory.2.position) = settings.unquoted mark front tail
      ∧ ∀ (script : List Reply) (sizing : Window.Sizing) (calls : List Call),
        KeepsGiving bytes.size script →
        (∀ error, Reply.fail error ∈ script → error.kind = .interrupted) →
        let stream := (Streaming.ofSource { bytes, script } sizing).after calls
        stream.position = front.length →
        let ran := scan.run stream
        (ran.1, ran.2.position) = settings.unquoted mark front tail := by
  intro bytes scan memory
  have inMemory : (memory.1, memory.2.position) = settings.unquoted mark front tail :=
    settings.run_scanText_between isQuote front tail
  refine ⟨inMemory, ?_⟩
  intro script sizing calls honest reliable stream here
  obtain ⟨position, mirrors, reliable⟩ :=
    (Streaming.Mirrors.ofSource sizing honest).reliable_after reliable calls
  obtain rfl : position = front.length := mirrors.position_eq.symm.trans here
  have asks := (Compositional.asks settings).scanText (ascii mark)
  obtain ⟨same, there, -⟩ := Streaming.lockstep.run asks ⟨mirrors, reliable⟩
  rw [← inMemory]
  exact Prod.ext same there.position_eq

/-- An escaped quote, an escaped letter, a backslash at the end of a piece, and a byte that is no
text. The cursor over the source has gone over the first byte. -/
theorem run_scanText_eq_escapes :
    let tail := [ascii '\\', ascii '\x27', ascii '"', ascii '\\', ascii 'n', 0xFF, ascii '\x27',
      ascii 'z']
    let bytes := (ascii 'x' :: ascii '\x27' :: tail).toArray
    let script : List Reply := [.give 3, .fail .interruption, .give 3, .give 1]
    let stream := (Streaming.ofSource { bytes, script }).after [.advance 1]
    let ran := (scanText {} (ascii '\x27')).run stream
    KeepsGiving bytes.size script
      ∧ (∀ error, Reply.fail error ∈ script → error.kind = .interrupted)
      ∧ stream.position = 1
      ∧ (ran.1, ran.2.position) = (.ok (.text "\x27\"\n\uFFFD"), 9) := by
  intro tail bytes script stream ran
  have honest : KeepsGiving bytes.size script := by
    simp [KeepsGiving, script, bytes]
  have reliable : ∀ error, Reply.fail error ∈ script → error.kind = .interrupted := by
    simp [script]
  have there : stream.position = 1 := by
    unfold stream script bytes tail
    cbv
  have decoded : unquoted {} '\x27' [ascii 'x'] tail = (.ok (.text "\x27\"\n\uFFFD"), 9) := by
    decide +kernel
  refine ⟨honest, reliable, there, ?_⟩
  exact ((run_scanText_eq {} (.inl rfl) [ascii 'x'] tail).2 script {} [.advance 1] honest reliable
    there).trans decoded

end Settings

end TableDump
