import Mathlib
import TableDump.Proofs.Unambiguity

/-!
# How much of the input a fault quotes

How many bytes of the input are quoted where it cannot be read should make a difference to
the quotation only. It does so for what is read, for where reading stops and for what is
wrong there (`Reader.Retold`): all of that is a matter of the bytes, as there is one way of
reading them and one thing wrong with them (`Settings.Points.unique`).

There is one exception. Where a character stands that begins no token, the fault names it,
and it takes the name from the quotation. If that is too short for the character, another one
is named: one that is not there at all (`Utf8.shown`). So two readings of a text that quote
differently much can name different characters, but if both quote at least four bytes they
do not (`Reader.transcript_retold`).

That the quotation begins with a character of the text, and not in the middle of one, is
because every part of a dump ends with an ASCII byte (`Grammar.Part.endsAscii`).
-/

namespace TableDump

open Grammar
open InMemory (between)

/-! ## What is shown of a character -/

namespace Utf8

/-- **What the first `length` bytes show of a character** that comes first: all of it, or that
something was cut off, or if there are none, the character with the number of its first byte. -/
def shown (length : Nat) (char : Char) : Char :=
  if (String.utf8EncodeChar char).length ≤ length then char
  else if length = 0 then Char.ofNat ((String.utf8EncodeChar char).headD 0).toNat
  else replacement

end Utf8

/-- **A fault names what it shows of the next character.** -/
theorem Settings.firstShown_encode (settings : Settings) (char : Char) (chars : List Char) :
    settings.firstShown (Utf8.encode (char :: chars))
      = Utf8.shown settings.excerptLength char := by
  obtain ⟨lead, tail, bytes, first⟩ := Utf8.decodeFirst_encodeChar char
    ((Utf8.encode chars).take (settings.excerptLength - 1 - (String.utf8EncodeChar char).tail.length))
  unfold firstShown Utf8.shown
  rw [Utf8.encode_cons, bytes, List.cons_append]
  rcases seen : settings.excerptLength with _ | count
  · rw [if_neg (by simp), if_pos rfl, List.take_zero, Utf8.decodeChars, Utf8.decodeOnto]
    rfl
  · rw [bytes, seen, List.tail_cons, Nat.add_sub_cancel] at first
    rw [List.take_succ_cons, Utf8.decodeChars_cons, List.take_append, List.length_cons]
    split
    case isTrue fits =>
      rw [List.take_of_length_le (Nat.le_of_succ_le_succ fits), first]
      rfl
    case isFalse cut =>
      have short : count < tail.length := Nat.lt_of_succ_lt_succ (Nat.lt_of_not_le cut)
      rw [if_neg (Nat.succ_ne_zero count), Nat.sub_eq_zero_of_le short.le, List.take_zero,
        List.append_nil]
      refine Utf8.decodeFirst_short bytes ?_
      rwa [List.length_take, min_eq_left short.le]

/-! ## Characters and parts -/

namespace Grammar

variable {maxDepth depth after : Nat} {part source rest : Bytes}

/-- **The last byte is an ASCII byte.** -/
def EndsAscii (bytes : Bytes) : Prop :=
  ∃ front last, bytes = front ++ [last] ∧ last.toNat < 0x80

/-- Also behind other bytes. -/
theorem EndsAscii.append (front : Bytes) (h : EndsAscii rest) : EndsAscii (front ++ rest) := by
  obtain ⟨others, last, rfl, ascii⟩ := h
  exact ⟨front ++ others, last, (List.append_assoc front others [last]).symm, ascii⟩

/-- Some bytes that are all ASCII. -/
theorem EndsAscii.of_forall {bytes : Bytes} (ne_nil : bytes ≠ [])
    (h : ∀ byte ∈ bytes, byte.toNat < 0x80) : EndsAscii bytes :=
  ⟨bytes.dropLast, bytes.getLast ne_nil, (List.dropLast_append_getLast ne_nil).symm,
    h _ (List.getLast_mem ne_nil)⟩

theorem IsWordByte.toNat_lt {byte : UInt8} (h : IsWordByte byte) : byte.toNat < 0x80 := by
  rcases h with (⟨-, high⟩ | ⟨-, high⟩) | digit | rfl
  · exact lt_of_le_of_lt (UInt8.le_iff_toNat_le.1 high) (by decide)
  · exact lt_of_le_of_lt (UInt8.le_iff_toNat_le.1 high) (by decide)
  · exact digit.toNat_lt
  · decide

theorem Blank.endsAscii (h : Blank part rest) (more : rest ≠ []) : EndsAscii part := by
  cases h with
  | @space byte _ space =>
    refine ⟨[], byte, rfl, ?_⟩
    rcases space with rfl | rfl | rfl | rfl <;> decide
  | comment comment =>
    cases comment with
    | @line text => exact .append [ascii '-', ascii '-'] (.append text ⟨[], _, rfl, by decide⟩)
    | lastLine => exact absurd rfl more
    | @block text =>
      exact .append [ascii '/', ascii '*'] (.append text ⟨[ascii '*'], _, rfl, by decide⟩)

theorem Lexeme.endsAscii {token : Token} (h : Lexeme token part rest) : EndsAscii part := by
  have word : ∀ {word : Bytes}, Word word rest → EndsAscii word := by
    intro word bytes
    obtain ⟨byte, head, -⟩ := bytes.letter
    refine .of_forall ?_ fun byte mem => (bytes.bytes byte mem).toNat_lt
    rintro rfl
    cases head
  cases h with
  | keyword bytes | identifier bytes => exact word bytes
  | integer bytes => exact .of_forall bytes.ne_nil fun byte mem => (bytes.bytes byte mem).toNat_lt
  | @real whole fraction _ _ before behind =>
    refine .append whole (.append [ascii '.'] ?_)
    exact .of_forall behind.ne_nil fun byte mem => (behind.bytes byte mem).toNat_lt
  | @text quote source _ _ mark =>
    refine .append [quote] (.append source ⟨[], quote, rfl, ?_⟩)
    rcases mark with rfl | rfl <;> decide
  | @name name => exact .append [ascii '\x60'] (.append name ⟨[], _, rfl, by decide⟩)
  | mark single =>
    refine ⟨[], _, rfl, ?_⟩
    fin_cases single <;> decide

/-- **A part of a dump ends with an ASCII byte**, if something is behind it. -/
theorem Part.endsAscii (h : Part maxDepth depth after part rest) (more : rest ≠ []) :
    EndsAscii part := by
  cases h with
  | blank blank => exact blank.endsAscii more
  | lexeme lexeme => exact lexeme.endsAscii
  | opens => exact ⟨[], _, rfl, by decide⟩
  | closes =>
    refine ⟨[], _, rfl, ?_⟩
    unfold Settings.closing
    split <;> decide

/-- So do any number of them. -/
theorem Parts.endsAscii (h : Parts maxDepth depth after source rest) (more : rest ≠ []) :
    source = [] ∨ EndsAscii source := by
  induction h with
  | nil => exact .inl rfl
  | @cons _ _ _ part source rest first others ih =>
    right
    rcases ih more with rfl | ends
    · rw [List.append_nil]
      exact first.endsAscii more
    · exact ends.append part

/-- **Behind an ASCII byte a text comes apart**: what ends with one is some of its characters. -/
theorem EndsAscii.exists_characters {chars : List Char} (h : EndsAscii source)
    (split : source ++ rest = Utf8.encode chars) :
    ∃ before others, chars = before ++ others ∧ Utf8.encode before = source
      ∧ Utf8.encode others = rest := by
  obtain ⟨front, last, rfl, small⟩ := h
  obtain ⟨number, mark⟩ := Utf8.ascii_ofNat small
  rw [← number] at small
  rw [List.append_assoc, List.singleton_append, ← mark] at split
  obtain ⟨before, others, chars_eq, front_eq, others_eq⟩ :=
    Utf8.exists_split_of_ascii small split.symm
  refine ⟨_, others, chars_eq.trans (List.append_cons before _ others), ?_, others_eq⟩
  rw [Utf8.encode_append, front_eq, Utf8.encode_ascii (by simpa using small), List.map_singleton,
    mark]

/-- A character that is strange stands somewhere. -/
theorem Stuck.ne_nil {found : Char} (h : Stuck maxDepth depth (.unexpectedCharacter found) rest) :
    rest ≠ [] := by
  cases h with
  | token => exact List.cons_ne_nil _ _

/-- **A place in the middle of a text is between two characters.** -/
theorem Underway.exists_characters {chars : List Char} (h : Underway maxDepth depth source rest)
    (more : rest ≠ []) (split : source ++ rest = Utf8.encode chars) :
    ∃ before char behind, chars = before ++ char :: behind ∧ source = Utf8.encode before
      ∧ rest = Utf8.encode (char :: behind) := by
  have next : ∀ {before others : List Char}, chars = before ++ others →
      source = Utf8.encode before → rest = Utf8.encode others →
      ∃ before char behind, chars = before ++ char :: behind ∧ source = Utf8.encode before
        ∧ rest = Utf8.encode (char :: behind) := by
    intro before others chars_eq source_eq rest_eq
    cases others with
    | nil => exact absurd rest_eq more
    | cons char behind => exact ⟨before, char, behind, chars_eq, source_eq, rest_eq⟩
  rcases Parts.endsAscii h more with rfl | ends
  · exact next (List.nil_append chars).symm rfl split
  · obtain ⟨before, others, chars_eq, before_eq, others_eq⟩ := ends.exists_characters split
    exact next chars_eq before_eq.symm others_eq.symm

end Grammar

/-! ## Two readings -/

namespace Reader

/-- **One call, in two readings of some bytes**: it hands out the same, or both readings meet
faults that point at the same place. -/
inductive Paired (settings settings' : Settings) (bytes : Bytes) :
    Except Fault (Option Statement) × Nat → Except Fault (Option Statement) × Nat → Prop where
  | found (found : Option Statement) (place : Nat) :
      Paired settings settings' bytes (.ok found, place) (.ok found, place)
  | fault {fault fault' : Fault} {place : Nat} (points : settings.Points bytes fault place)
      (points' : settings'.Points bytes fault' place) :
      Paired settings settings' bytes (.error fault, place) (.error fault', place)

/-- **Readings that differ in what they quote go together**, call by call. -/
theorem transcript_paired {settings : Settings} {bytes before rest : Bytes} {limit : Nat}
    (here : settings.Reached bytes 0 limit before rest) (length counted count : Nat) :
    let settings' := { settings with excerptLength := length }
    List.Forall₂ (Paired settings settings' bytes)
      (transcript count { cursor := between before rest, settings, statements := counted })
      (transcript count
        { cursor := between before rest, settings := settings', statements := counted }) := by
  intro settings'
  have finished : ∀ {count counted counted' : Nat} {cursor cursor' : InMemory},
      cursor.position = cursor'.position →
      List.Forall₂ (Paired settings settings' bytes)
        (transcript count { cursor, settings, statements := counted, finished := true })
        (transcript count
          { cursor := cursor', settings := settings', statements := counted',
            finished := true }) := by
    intro count counted counted' cursor cursor' position_eq
    rw [transcript_of_finished rfl, transcript_of_finished rfl]
    rw [show position _ = cursor.position from rfl, show position _ = cursor'.position from rfl,
      position_eq, List.forall₂_same]
    intro call mem
    obtain rfl := List.eq_of_mem_replicate mem
    exact .found none _
  induction count generalizing before rest counted with
  | zero => exact .nil
  | succ count ih =>
    have there : settings'.Reached bytes 0 limit before rest :=
      ⟨here.split, here.underway, here.left⟩
    have comes := here.comes_scanStatement
    have comes' := there.comes_scanStatement
    -- what is recognized does not depend on what is quoted
    have agree : ∀ found cursor,
        settings.scanStatement.run (between before rest) = (.ok found, cursor)
          ↔ settings'.scanStatement.run (between before rest) = (.ok found, cursor) :=
      fun found cursor => (settings.recognizes_scanStatement before rest found cursor).trans
        (settings'.recognizes_scanStatement before rest found cursor).symm
    rw [transcript, transcript, next, next]
    dsimp only [Bool.false_eq_true, if_false]
    generalize settings.scanStatement.run (between before rest) = ran at comes agree ⊢
    generalize settings'.scanStatement.run (between before rest) = ran' at comes' agree ⊢
    rcases ran with ⟨fault | value, cursor⟩
    · rcases ran' with ⟨fault' | value, cursor'⟩
      · have points := comes.points
        have points' := comes'.points
        obtain ⟨place_eq, -⟩ := points.unique points' rfl
        refine .cons ?_ (finished place_eq)
        rw [← place_eq] at points'
        show Paired settings settings' bytes (.error fault, cursor.position)
          (.error fault', cursor'.position)
        rw [← place_eq]
        exact .fault points points'
      · exact absurd ((agree value cursor').2 rfl) (by simp)
    · obtain rfl := (agree value cursor).1 rfl
      cases comes with
      | on there =>
        cases value with
        | none => exact .cons (.found _ _) (finished rfl)
        | some statement => exact .cons (.found _ _) (ih there _)

/-- What a fault quotes of a text. -/
def quoted (text : String) (length place : Nat) : String :=
  Utf8.decode (((bytesOf text).toList.drop place).take length)

/-- **One call, in two readings of a text** of which one quotes up to `length` bytes and the other
up to `length'`. -/
inductive Retold (text : String) (length length' : Nat) :
    Except Fault (Option Statement) × Nat → Except Fault (Option Statement) × Nat → Prop where
  /-- It hands out the same statement, or none. -/
  | found (found : Option Statement) (place : Nat) :
      Retold text length length' (.ok found, place) (.ok found, place)
  /-- The same is wrong, at the same place. -/
  | fault {cause : Malformation} {place : Nat}
      (other : ∀ found, cause ≠ .unexpectedCharacter found) :
      Retold text length length'
        (.error (.malformed cause { offset := place, excerpt := quoted text length place }), place)
        (.error (.malformed cause { offset := place, excerpt := quoted text length' place }), place)
  /-- The same character is strange, and both faults name what they show of it. -/
  | character {before behind : List Char} {char : Char} {place : Nat}
      (split : text.toList = before ++ char :: behind)
      (place_eq : place = (Utf8.encode before).length) :
      Retold text length length'
        (.error (.malformed (.unexpectedCharacter (Utf8.shown length char))
          { offset := place, excerpt := quoted text length place }), place)
        (.error (.malformed (.unexpectedCharacter (Utf8.shown length' char))
          { offset := place, excerpt := quoted text length' place }), place)

/-- **In a text, a strange character is known**, since it is all there. -/
theorem Paired.retold {settings : Settings} {text : String} {length : Nat}
    {call call' : Except Fault (Option Statement) × Nat}
    (h : Paired settings { settings with excerptLength := length } (bytesOf text).toList call
      call') :
    Retold text settings.excerptLength length call call' := by
  cases h with
  | found found place => exact .found found place
  | @fault fault fault' place points points' =>
    obtain ⟨inside, cause, depth, rfl, underway, stuck, names⟩ := points
    obtain ⟨-, cause', depth', rfl, underway', stuck', names'⟩ := points'
    obtain ⟨-, alike⟩ := underway.stuck_unique stuck underway' stuck' rfl
    have strange : ∀ found found', cause = .unexpectedCharacter found →
        cause' = .unexpectedCharacter found' →
        Retold text settings.excerptLength length
          (.error (.malformed cause
            { offset := place, excerpt := quoted text settings.excerptLength place }), place)
          (.error (.malformed cause'
            { offset := place, excerpt := quoted text length place }), place) := by
      rintro found found' rfl rfl
      obtain ⟨before, char, behind, split, before_eq, behind_eq⟩ :=
        underway.exists_characters stuck.ne_nil
          ((List.take_append_drop place _).trans (Utf8.toList_bytesOf text))
      rw [names found rfl, names' found' rfl, behind_eq, Settings.firstShown_encode,
        Settings.firstShown_encode]
      refine .character split ?_
      rw [← before_eq, List.length_take, min_eq_left inside]
    cases alike with
    | unexpectedCharacter found found' => exact strange found found' rfl rfl
    | same =>
      by_cases other : ∀ found, cause ≠ .unexpectedCharacter found
      · exact .fault other
      · obtain ⟨found, same⟩ := not_forall_not.1 other
        exact strange found found same same

/-- **How much is quoted matters to the quotation**, and to the name of a strange character that it
is too short for. Two readings of a text that differ only in that hand out the same statements,
call by call, and leave their readers at the same places. If they fail, they fail at the same place
for the same cause, and where that is a character that begins no token, it is the same one. Each
fault names what it shows of it. -/
theorem transcript_retold (text : String) (settings : Settings) (length count : Nat) :
    List.Forall₂ (Retold text settings.excerptLength length)
      ((ofBytes (bytesOf text) settings).transcript count)
      ((ofBytes (bytesOf text) { settings with excerptLength := length }).transcript count) := by
  have start : settings.Reached (bytesOf text).toList 0 (bytesOf text).toList.length []
      (bytesOf text).toList :=
    ⟨rfl, .nil, le_rfl⟩
  exact (transcript_paired start length 0 count).imp fun _ _ paired => paired.retold

/-- **A character that is cut off gets another name.** Of the two bytes of this one, one is a
character that cannot be decoded, and none of them is the character with the number of the first. -/
theorem transcript_retold_cut :
    let calls := fun length => (ofBytes (bytesOf "é") { excerptLength := length }).transcript 1
    calls 2 = [(.error (.malformed (.unexpectedCharacter 'é') { offset := 0, excerpt := "é" }), 0)]
      ∧ calls 1 = [(.error (.malformed (.unexpectedCharacter Utf8.replacement)
          { offset := 0, excerpt := "\uFFFD" }), 0)]
      ∧ calls 0 = [(.error (.malformed (.unexpectedCharacter 'Ã')
          { offset := 0, excerpt := "" }), 0)]
      ∧ 'é' ≠ Utf8.replacement ∧ 'é' ≠ 'Ã' := by
  intro calls
  exact ⟨by decide +kernel, by decide +kernel, by decide +kernel, by decide, by decide⟩

end Reader

end TableDump
