import Mathlib
import TableDump.Proofs.Scan
import TableDump.Token.Scan

/-!
# What a reading takes for granted

Two questions fail for want of bytes: going forward, and cutting out a piece. All others
have an answer wherever the input ends. So a reading has to know that the bytes are there
before it asks one of the two, and it can know only from the answers to its other
questions: a byte that was seen is there, and all bytes before it, and so is what a search
has found.

A reading is `Careful` if it gets along with that knowledge. The knowledge is a number,
the bytes that are known to be in front of the cursor, and each answer says what becomes
of it (`Query.Leaves`). This is said of the reading alone, with no cursor: which bytes
there are, and whether there is a source that could fail, does not come in.

Nor does it look far beyond what it knows: a byte in front of it, or two.

There is one law for each rule by which tokens are read. They hold at the end of the
input like everywhere else: a number that ends in a point, a comment that is open, a
backslash with nothing behind it.
-/

namespace TableDump

variable {α β : Type}

namespace Query

/-- **The range that a question takes for granted**, counted from the cursor. -/
def range? : Query → Option (Nat × Nat)
  | .advance count => some (0, count)
  | .slice start stop => some (start, stop)
  | _ => none

/-- **How far a question reaches**: how much is added to the position of the cursor, at
most, to find out what it asks for. -/
def reach : Query → Nat
  | .peek offset => offset + 1
  | .advance count => count
  | .slice start stop => max start stop
  | .find _ start => start
  | .findEither _ _ start => start
  | .skipRest => 0
  | .preview _ => 0

/-- **A question that cannot fail for want of bytes**, if `known` bytes are in front of
the cursor. -/
structure Safe (known : Nat) (query : Query) : Prop where
  sensible : query.Sensible
  /-- Its range is in order, and there. -/
  range_le : ∀ {start stop}, query.range? = some (start, stop) → start ≤ stop ∧ stop ≤ known
  /-- It does not reach far beyond. -/
  reach_le : query.reach ≤ known + 2

/-- What is not about a range is safe if it does not reach far. -/
theorem Safe.of_sensible {known : Nat} {query : Query} (sensible : query.Sensible)
    (free : query.range? = none) (near : query.reach ≤ known + 2) : query.Safe known :=
  ⟨sensible, fun asks => absurd (free.symm.trans asks) nofun, near⟩

/-- **What is known behind an answer**, when `known` bytes were known before. -/
def Leaves (known : Nat) : (query : Query) → query.Answer → (known' : Nat) → Prop
  | .peek offset, answer, known' =>
    match answer with
    | some _ => known' = max known (offset + 1)
    | none => known' = known
  | .advance count, _, known' => known' = known - count
  | .slice _ _, _, known' => known' = known
  | .find needle start, answer, known' =>
    match answer with
    | some index => start ≤ index ∧ known' = max known (index + needle.length)
    | none => known' = known
  | .findEither _ _ start, answer, known' =>
    match answer with
    | some index => start ≤ index ∧ known' = max known (index + 1)
    | none => known' = known
  | .skipRest, _, known' => known' = 0
  | .preview _, _, known' => known' = known

end Query

namespace Scan

/-- **A reading that takes nothing for granted** but what it knows, `known` bytes to begin
with. If it comes to a value, `post` holds of the value and of what is known then; and
what it fails with is a fault of the input. -/
def Careful : Scan α → (known : Nat) → (post : α → (known' : Nat) → Prop) → Prop
  | done value, known, post => post value known
  | fail fault, _, _ => fault.isMalformed = true
  | locate next, known, post => ∀ position left, (next position left).Careful known post
  | ask query next, known, post =>
    query.Safe known ∧ ∀ answer known', query.Leaves known answer known' →
      (next answer).Careful known' post

namespace Careful

variable {known : Nat} {post post' : α → Nat → Prop}

/-- What is said of the value is said of less. -/
theorem mono {scan : Scan α} (h : scan.Careful known post)
    (imp : ∀ value known', post value known' → post' value known') :
    scan.Careful known post' := by
  induction scan generalizing known with
  | done value => exact imp value known h
  | fail fault => exact h
  | locate next ih => exact fun position left => ih position left (h position left)
  | ask query next ih =>
    exact ⟨h.1, fun answer known' leaves => ih answer (h.2 answer known' leaves)⟩

/-- Nothing is asked. -/
theorem pure {value : α} (h : post value known) : (Pure.pure value : Scan α).Careful known post :=
  h

/-- **A sequence of careful readings is careful**, if the second one gets along with what
the first one leaves. -/
theorem bind {first : Scan α} {next : α → Scan β} {between : α → Nat → Prop}
    {post : β → Nat → Prop} (hfirst : first.Careful known between)
    (hnext : ∀ value known', between value known' → (next value).Careful known' post) :
    (first >>= next).Careful known post := by
  rw [bind_eq]
  induction first generalizing known with
  | done value => exact hnext value known hfirst
  | fail fault => exact hfirst
  | locate rest ih => exact fun position left => ih position left (hfirst position left)
  | ask query rest ih =>
    exact ⟨hfirst.1, fun answer known' leaves => ih answer (hfirst.2 answer known' leaves)⟩

/-! ## Questions -/

/-- A single question. -/
theorem ask {query : Query} (safe : query.Safe known) :
    (Scan.ask query done).Careful known (query.Leaves known) :=
  ⟨safe, fun _ _ leaves => leaves⟩

/-- To look where the cursor stands is to ask nothing. -/
theorem left : Scan.left.Careful known fun _ known' => known' = known := fun _ _ => rfl

theorem peek {offset : Nat} (near : offset ≤ known + 1) :
    (Scan.peek offset).Careful known fun found known' =>
      known ≤ known' ∧ (found.isSome = true → offset < known') := by
  have asked : (Scan.peek offset).Careful known ((Query.peek offset).Leaves known) :=
    ask (.of_sensible trivial rfl (Nat.succ_le_succ near))
  refine asked.mono ?_
  rintro (_ | byte) known' leaves
  · obtain rfl : known' = known := leaves
    exact ⟨le_rfl, nofun⟩
  · obtain rfl : known' = max known (offset + 1) := leaves
    exact ⟨le_max_left _ _, fun _ => by omega⟩

theorem advance {count : Nat} (enough : count ≤ known) :
    (Scan.advance count).Careful known fun _ known' => known' = known - count := by
  refine ask ⟨trivial, ?_, enough.trans (Nat.le_add_right _ _)⟩
  rintro _ _ ⟨⟩
  exact ⟨Nat.zero_le _, enough⟩

theorem slice {start stop : Nat} (ordered : start ≤ stop) (enough : stop ≤ known) :
    (Scan.slice start stop).Careful known fun _ known' => known' = known := by
  refine ask ⟨trivial, ?_, max_le (by omega) (by omega)⟩
  rintro _ _ ⟨⟩
  exact ⟨ordered, enough⟩

theorem find (byte : UInt8) (rest : Bytes) {start : Nat} (near : start ≤ known + 2) :
    (Scan.find (byte :: rest) start).Careful known fun found known' =>
      known ≤ known' ∧ ∀ index, found = some index →
        start ≤ index ∧ index + rest.length < known' := by
  have asked : (Scan.find (byte :: rest) start).Careful known
      ((Query.find (byte :: rest) start).Leaves known) :=
    ask (.of_sensible (List.cons_ne_nil byte rest) rfl near)
  refine asked.mono ?_
  rintro (_ | index) known' leaves
  · obtain rfl : known' = known := leaves
    exact ⟨le_rfl, nofun⟩
  · obtain ⟨le, rfl⟩ : start ≤ index ∧ known' = max known (index + (rest.length + 1)) := leaves
    refine ⟨le_max_left _ _, ?_⟩
    rintro _ ⟨⟩
    exact ⟨le, by omega⟩

theorem findEither (a b : UInt8) {start : Nat} (near : start ≤ known + 2) :
    (Scan.findEither a b start).Careful known fun found known' =>
      known ≤ known' ∧ ∀ index, found = some index → start ≤ index ∧ index < known' := by
  have asked : (Scan.findEither a b start).Careful known
      ((Query.findEither a b start).Leaves known) := ask (.of_sensible trivial rfl near)
  refine asked.mono ?_
  rintro (_ | index) known' leaves
  · obtain rfl : known' = known := leaves
    exact ⟨le_rfl, nofun⟩
  · obtain ⟨le, rfl⟩ : start ≤ index ∧ known' = max known (index + 1) := leaves
    refine ⟨le_max_left _ _, ?_⟩
    rintro _ ⟨⟩
    exact ⟨le, by omega⟩

theorem skipRest : Scan.skipRest.Careful known fun _ _ => True :=
  ⟨.of_sensible trivial rfl (Nat.zero_le _), fun _ _ _ => trivial⟩

theorem atEnd :
    Scan.atEnd.Careful known fun ended known' => ended = false → 0 < known' := by
  refine .bind (.peek (Nat.zero_le _)) ?_
  rintro (_ | byte) known' ⟨-, seen⟩
  · exact .pure nofun
  · exact .pure fun _ => seen rfl

/-- **A run of bytes is known to its end**, if it is known where it begins. -/
theorem spanFrom (member : UInt8 → Bool) {start : Nat} (fuel : Nat) (begins : start ≤ known) :
    (Scan.spanFrom member start fuel).Careful known fun stop known' =>
      start ≤ stop ∧ stop ≤ known' := by
  induction fuel generalizing start known with
  | zero => exact .pure ⟨le_rfl, begins⟩
  | succ fuel ih =>
    rw [Scan.spanFrom]
    refine .bind (.peek (begins.trans (Nat.le_succ known))) ?_
    rintro (_ | byte) known' ⟨more, seen⟩
    · exact .pure ⟨le_rfl, begins.trans more⟩
    · dsimp only
      split
      · exact (ih (seen rfl)).mono fun stop known'' there => ⟨by omega, there.2⟩
      · exact .pure ⟨le_rfl, begins.trans more⟩

theorem spanEnd (member : UInt8 → Bool) {start : Nat} (begins : start ≤ known) :
    (Scan.spanEnd member start).Careful known fun stop known' => start ≤ stop ∧ stop ≤ known' := by
  refine .bind .left ?_
  rintro left _ rfl
  exact .spanFrom member (left + 1) begins

/-! ## Faults -/

/-- Where reading cannot go on, it is because of the input. -/
theorem malformed (settings : Settings) (cause : Malformation) :
    (settings.malformed cause : Scan α).Careful known post :=
  fun _ _ => ⟨.of_sensible trivial rfl (Nat.zero_le _), fun _ _ _ => rfl⟩

theorem unexpected (settings : Settings) (byte : UInt8) :
    (settings.unexpected byte : Scan α).Careful known post :=
  ⟨.of_sensible trivial rfl (Nat.zero_le _), fun _ _ _ _ _ => rfl⟩

/-! ## Between tokens -/

section

variable (settings : Settings)

/-- **A comment is gone over** as far as it was found to go. -/
theorem skipComment : settings.skipComment.Careful known fun _ _ => True := by
  unfold Settings.skipComment
  refine .bind (.peek (Nat.zero_le _)) fun first _ _ =>
    .bind (.peek (Nat.le_add_left 1 _)) fun second _ _ => ?_
  split
  · refine .bind (.find _ _ (Nat.le_add_left 2 _)) ?_
    rintro (_ | stop) _ ⟨-, found⟩
    · exact .bind .skipRest fun _ _ _ => .pure trivial
    · exact .bind (.advance (found stop rfl).2) fun _ _ _ => .pure trivial
  · split
    · refine .bind (.find _ _ (Nat.le_add_left 2 _)) ?_
      rintro (_ | stop) _ ⟨-, found⟩
      · exact .bind (.malformed settings _) fun _ _ (_ : True) => .pure trivial
      · exact .bind (.advance (found stop rfl).2) fun _ _ _ => .pure trivial
    · exact .pure trivial

theorem skipBlanksWithin (fuel : Nat) :
    (settings.skipBlanksWithin fuel).Careful known fun _ _ => True := by
  induction fuel generalizing known with
  | zero => exact .pure trivial
  | succ fuel ih =>
    rw [Settings.skipBlanksWithin]
    have further : ∀ {known'}, (settings.skipComment >>= fun skipped =>
        if skipped then settings.skipBlanksWithin fuel else Pure.pure ()).Careful known'
          fun _ _ => True := by
      refine .bind (.skipComment settings) ?_
      rintro (_ | _) _ -
      · exact .pure trivial
      · exact ih
    refine .bind (.spanEnd _ (Nat.zero_le known)) ?_
    rintro blanks known' ⟨-, enough⟩
    dsimp only
    split
    · exact .bind (.advance enough) fun _ _ _ => further
    · exact further

theorem skipBlanks : settings.skipBlanks.Careful known fun _ _ => True :=
  .bind .left fun _ _ _ => .skipBlanksWithin settings _

/-! ## Tokens, whose first byte has been seen -/

theorem scanWord (seen : 0 < known) : Settings.scanWord.Careful known fun _ _ => True := by
  refine .bind (.spanEnd _ seen) ?_
  rintro stop known' ⟨-, enough⟩
  refine .bind (.slice (Nat.zero_le _) enough) ?_
  rintro word _ rfl
  exact .bind (.advance enough) fun _ _ _ => .pure trivial

theorem numeral (value? : Bytes → Option Token) {stop : Nat} (enough : stop ≤ known) :
    (settings.numeral value? stop).Careful known fun _ _ => True := by
  refine .bind (.slice (Nat.zero_le _) enough) ?_
  rintro literal _ rfl
  split
  · exact .bind (.advance enough) fun _ _ _ => .pure trivial
  · exact .malformed settings _

/-- **A fraction begins with two bytes** that have been seen. -/
theorem fractionAt {start : Nat} (enough : start ≤ known) :
    (Settings.fractionAt start).Careful known fun follows known' =>
      known ≤ known' ∧ (follows = true → start + 2 ≤ known') := by
  refine .bind (.peek (by omega)) fun point known' there => ?_
  split
  · refine .bind (.peek (Nat.succ_le_succ (enough.trans there.1))) ?_
    rintro (_ | digit) known'' ⟨more, seen⟩
    · exact .pure ⟨there.1.trans more, nofun⟩
    · exact .pure ⟨there.1.trans more, fun _ => seen rfl⟩
  · exact .pure ⟨there.1, nofun⟩

theorem scanNumber (seen : 0 < known) : settings.scanNumber.Careful known fun _ _ => True := by
  refine .bind (.spanEnd _ seen) ?_
  rintro whole known' ⟨-, enough⟩
  refine .bind (.fractionAt enough) ?_
  rintro (_ | _) known'' ⟨more, follows⟩
  · exact .numeral settings _ (enough.trans more)
  · exact .bind (.spanEnd _ (follows rfl)) fun stop _ there => .numeral settings _ there.2

theorem quotedFrom (quote : UInt8) (fuel : Nat) {start : Nat} (before : Bytes)
    (near : start ≤ known + 1) :
    (settings.quotedFrom quote fuel start before).Careful known fun _ _ => True := by
  induction fuel generalizing known start before with
  | zero => exact .malformed settings _
  | succ fuel ih =>
    rw [Settings.quotedFrom]
    refine .bind (.findEither _ _ (near.trans (Nat.le_succ _))) ?_
    rintro (_ | mark) known₁ ⟨-, found⟩
    · exact .malformed settings _
    · obtain ⟨ordered, there⟩ := found mark rfl
      refine .bind (.slice ordered there.le) ?_
      rintro plain _ rfl
      refine .bind (.peek (there.le.trans (Nat.le_succ _))) ?_
      rintro byte known₂ ⟨more, -⟩
      split
      · exact .bind (.advance (there.trans_le more)) fun _ _ _ => .pure trivial
      · refine .bind (.peek (Nat.succ_le_succ (there.le.trans more))) ?_
        rintro (_ | escaped) known₃ ⟨-, seen⟩
        · exact .malformed settings _
        · exact ih _ (Nat.le_succ_of_le (seen rfl))

theorem scanText (quote : UInt8) : (settings.scanText quote).Careful known fun _ _ => True :=
  .bind .left fun _ known _ =>
    .bind (.quotedFrom settings quote _ _ (Nat.le_add_left 1 known)) fun _ _ _ => .pure trivial

theorem scanName : settings.scanName.Careful known fun _ _ => True := by
  refine .bind (.find _ _ (Nat.le_add_left 1 _)) ?_
  rintro (_ | stop) known' ⟨-, found⟩
  · exact .malformed settings _
  · obtain ⟨ordered, there⟩ := found stop rfl
    refine .bind (.slice ordered (Nat.le_of_lt there)) ?_
    rintro name _ rfl
    exact .bind (.advance there) fun _ _ _ => .pure trivial

theorem scanDelimiter (mark : Delimiter) (seen : 0 < known) :
    (Settings.scanDelimiter mark).Careful known fun _ _ => True :=
  .bind (.advance seen) fun _ _ _ => .pure trivial

/-- **Any token that is no group.** -/
theorem scanSimple (byte : UInt8) (seen : 0 < known) :
    (settings.scanSimple byte).Careful known fun _ _ => True := by
  unfold Settings.scanSimple
  split_ifs
  · exact .scanWord seen
  · exact .scanNumber settings seen
  · exact .scanText settings byte
  · exact .scanName settings
  · exact .scanDelimiter _ seen
  · exact .scanDelimiter _ seen
  · exact .scanDelimiter _ seen
  · exact .unexpected settings byte

/-! ## Lists of tokens -/

theorem scanGroup (depth : Nat) {inside : Scan (List Token)} (seen : 0 < known)
    (hinside : ∀ known', inside.Careful known' fun _ _ => True) :
    (settings.scanGroup depth inside).Careful known fun _ _ => True := by
  unfold Settings.scanGroup
  split
  · exact .malformed settings _
  · exact .bind (.advance seen) fun _ _ _ => .bind (.skipBlanks settings) fun _ known' _ =>
      .bind (hinside known') fun _ _ _ => .pure trivial

/-- **The tokens up to a closing mark**: the first byte of each is seen before it is
read. -/
theorem tokensWithin (fuel depth : Nat) (before : List Token) :
    (settings.tokensWithin fuel depth before).Careful known fun _ _ => True := by
  induction fuel generalizing known depth before with
  | zero => exact .pure trivial
  | succ fuel ih =>
    rw [Settings.tokensWithin]
    refine .bind (.peek (Nat.zero_le _)) ?_
    rintro (_ | byte) known' ⟨-, seen⟩
    · dsimp only
      split
      · exact .pure trivial
      · exact .malformed settings _
    · have further : ∀ token known'', (settings.skipBlanks >>= fun _ =>
          settings.tokensWithin fuel depth (token :: before)).Careful known'' fun _ _ => True :=
        fun token _ => .bind (.skipBlanks settings) fun _ _ _ => ih _ _
      dsimp only
      split
      · exact .bind (.advance (seen rfl)) fun _ _ _ => .pure trivial
      · split
        · exact .bind (.scanGroup settings depth (seen rfl) fun _ => ih _ _)
            fun token known'' _ => further token known''
        · exact .bind (.scanSimple settings byte (seen rfl))
            fun token known'' _ => further token known''

end

end Careful

end Scan

/-- **The reading of a statement takes nothing for granted**, with any settings. -/
theorem Settings.careful_scanStatement (settings : Settings) :
    settings.scanStatement.Careful 0 fun _ _ => True := by
  refine .bind (.skipBlanks settings) fun _ _ _ => .bind .atEnd fun ended _ _ => ?_
  split
  · exact .pure trivial
  · exact .bind .left fun _ _ _ => .bind (.tokensWithin settings _ _ _) fun _ _ _ => .pure trivial

end TableDump
