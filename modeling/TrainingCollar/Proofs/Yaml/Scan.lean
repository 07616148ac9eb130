import TrainingCollar.Proofs.Yaml.Word

/-! # What the lexer makes of words and marks

A `Spot` is what has to be known of a lexer to tell how it goes on. What follows here is how a lexer at
a spot skips gaps, settles, and reads words as plain scalars, and which token it reads before each mark.
-/

namespace TrainingCollar.Yaml

variable {c : Cursor} {text more : List Char}

/-! ## Cursors -/

namespace Cursor

/-- A character that takes a column. -/
def takesColumn (ch : Char) : Bool := !isBreak ch && ch != byteOrderMark

theorem advance_of_takesColumn (isRest : c.rest = text ++ more)
    (columns : ∀ ch ∈ text, takesColumn ch = true) :
    c.advance text.length = ⟨more, c.line, c.column + text.length, c.index + text.length⟩ := by
  induction text generalizing c with
  | nil =>
    obtain ⟨rest, line, column, index⟩ := c
    cases isRest
    rfl
  | cons ch text ih =>
    obtain ⟨first, others⟩ := List.forall_mem_cons.mp columns
    obtain ⟨noBreak, noMark⟩ : isBreak ch = false ∧ ch ≠ byteOrderMark := by
      simpa [takesColumn] using first
    have isNext : c.next = ⟨text ++ more, c.line, c.column + 1, c.index + 1⟩ := by
      rw [next, isRest]
      simp [noBreak, noMark]
    rw [List.length_cons, advance, isNext, ih rfl others]
    simp only [Nat.add_assoc, Nat.add_comm 1]

theorem next_of_takesColumn {ch : Char} (isRest : c.rest = ch :: more) (takes : takesColumn ch = true) :
    c.next = ⟨more, c.line, c.column + 1, c.index + 1⟩ := by
  show c.advance [ch].length = _
  exact advance_of_takesColumn isRest (List.forall_mem_singleton.mpr takes)

theorem skip_of_head {p : Char → Bool} (stops : ∀ ch, c.rest.head? = some ch → p ch = false) :
    c.skip p = c := by
  have none : c.ahead p = [] := by
    unfold ahead
    cases isRest : c.rest with
    | nil => rfl
    | cons ch rest =>
      rw [isRest] at stops
      exact List.takeWhile_cons_of_neg (by rw [stops ch rfl]; exact Bool.false_ne_true)
  rw [skip, none]
  rfl

/-- Spaces are skipped up to what is no space. -/
theorem skipSpaces_of_spaces {n : Nat} (isRest : c.rest = List.replicate n ' ' ++ more)
    (stops : more.head? ≠ some ' ') :
    c.skipSpaces = ⟨more, c.line, c.column + n, c.index + n⟩ := by
  have spaces : ∀ ch ∈ List.replicate n ' ', (ch == ' ') = true := fun ch member => by
    rw [List.eq_of_mem_replicate member]
    rfl
  have isAhead : c.ahead (· == ' ') = List.replicate n ' ' := by
    rw [ahead, isRest]
    refine takeWhile_digits spaces fun ch isHead => ?_
    rw [beq_eq_false_iff_ne]
    rintro rfl
    exact stops isHead
  have advanced := advance_of_takesColumn isRest fun ch member => by
    rw [List.eq_of_mem_replicate member]
    rfl
  rw [skipSpaces, skip, isAhead]
  rw [List.length_replicate] at advanced ⊢
  exact advanced

theorem lineBreak?_of_head (noBreak : ∀ ch, c.rest.head? = some ch → isBreak ch = false) :
    c.lineBreak? = none := by
  unfold lineBreak? peek
  cases isHead : c.rest.head? with
  | none => rfl
  | some ch => simp [noBreak ch isHead]

theorem lineBreak?_of_lineFeed (isRest : c.rest = '\n' :: more) :
    c.lineBreak? = some ('\n', ⟨more, c.line + 1, 0, c.index + 1⟩) := by
  have isNext : c.next = ⟨more, c.line + 1, 0, c.index + 1⟩ := by
    rw [next, isRest]
    rfl
  rw [lineBreak?, peek, isRest, ← isNext]
  rfl

theorem atMarker_eq_false {mark : Char} (other : ∀ tail, c.rest ≠ mark :: mark :: mark :: tail) :
    c.atMarker mark = false := by
  rw [atMarker, Bool.and_eq_false_iff]
  left
  rw [beq_eq_false_iff_ne]
  intro same
  match isRest : c.rest with
  | a :: b :: d :: tail =>
    rw [isRest] at same
    cases same
    exact other tail isRest
  | [] | [_] | [_, _] =>
    rw [isRest] at same
    cases same

theorem atMarker_of_head {ch mark : Char} (isRest : c.rest = ch :: more) (other : ch ≠ mark) :
    c.atMarker mark = false := by
  refine atMarker_eq_false fun tail same => ?_
  rw [isRest] at same
  exact other (List.cons.inj same).1

end Cursor

/-! ## What comes next -/

/-- Whether a text does not start with a gap or a comment. -/
def startsSolid : List Char → Bool
  | [] => true
  | ch :: _ => !isGap ch && ch != '#' && ch != byteOrderMark

/-- Whether a text can start a line: with a word, or with a dash before a space. -/
def startsLine (text : List Char) : Bool :=
  text.isEmpty || ['-', ' '].isPrefixOf text || startsWord text

theorem startsWord_append (starts : startsWord text = true) (more : List Char) :
    startsWord (text ++ more) = true := by
  rcases startsWord_cases starts with ⟨ch, rest, rfl, alnum⟩ | ⟨ch, rest, rfl, alnum⟩
  · rw [List.cons_append]
    unfold startsWord
    split
    · next same =>
      obtain ⟨rfl, _⟩ := List.cons.inj same
      cases alnum
    · next same =>
      obtain ⟨rfl, _⟩ := List.cons.inj same
      exact alnum
    · next same => cases same
  · exact alnum

theorem ne_nil_of_startsWord (starts : startsWord text = true) : text ≠ [] := by
  rintro rfl
  cases starts

theorem length_lt_of_isWord (word : isWord text = true) (more : List Char) :
    more.length < (text ++ more).length := by
  have positive := List.length_pos_iff.mpr (ne_nil_of_isWord word)
  rw [List.length_append]
  omega

theorem startsSolid_of_startsWord (starts : startsWord text = true) : startsSolid text = true := by
  rcases startsWord_cases starts with ⟨ch, rest, rfl, alnum⟩ | ⟨ch, rest, rfl, _⟩
  · have word := isWordChar_of_isLetterOrDigit alnum
    rw [startsSolid, isGap_of_isWordChar word, bne_iff_ne.mpr (ne_of_isWordChar word rfl),
      bne_iff_ne.mpr (ne_of_isWordChar word rfl)]
    rfl
  · rfl

theorem startsLine_cases (starts : startsLine text = true) :
    text = [] ∨ (∃ rest, text = '-' :: ' ' :: rest) ∨ startsWord text = true := by
  rw [startsLine, Bool.or_eq_true, Bool.or_eq_true, List.isEmpty_iff, List.isPrefixOf_iff_prefix]
    at starts
  rcases starts with (none | ⟨rest, item⟩) | word
  · exact .inl none
  · exact .inr (.inl ⟨rest, item.symm⟩)
  · exact .inr (.inr word)

theorem startsLine_of_startsWord (starts : startsWord text = true) : startsLine text = true := by
  rw [startsLine, starts, Bool.or_true]

theorem startsSolid_of_startsLine (starts : startsLine text = true) : startsSolid text = true := by
  rcases startsLine_cases starts with rfl | ⟨rest, rfl⟩ | word
  · rfl
  · rfl
  · exact startsSolid_of_startsWord word

/-- No line starts with a mark of a document's start or end. -/
theorem atDocumentMarker_of_startsLine {n : Nat} (isRest : c.rest = List.replicate n ' ' ++ text)
    (starts : startsLine text = true) : c.atDocumentMarker = false := by
  have noMarker (mark : Char) (isMark : mark = '-' ∨ mark = '.') : c.atMarker mark = false := by
    refine Cursor.atMarker_eq_false fun tail same => ?_
    rw [isRest] at same
    cases n with
    | succ n =>
      rw [List.replicate_succ, List.cons_append] at same
      obtain ⟨rfl, _⟩ := List.cons.inj same
      simp at isMark
    | zero =>
      rcases startsLine_cases starts with rfl | ⟨rest, rfl⟩ | word
      · cases same
      · obtain ⟨rfl, same⟩ := List.cons.inj same
        cases same
      · obtain rfl : text = mark :: mark :: mark :: tail := same
        rcases isMark with rfl | rfl <;> cases word
  rw [Cursor.atDocumentMarker, noMarker '-' (.inl rfl), noMarker '.' (.inr rfl)]
  rfl

theorem head_of_startsSolid (solid : startsSolid text = true) : ∀ ch, text.head? = some ch →
    isGap ch = false ∧ ch ≠ '#' ∧ ch ≠ byteOrderMark := by
  intro ch isHead
  cases text with
  | nil => cases isHead
  | cons first rest =>
    cases isHead
    simpa [startsSolid, and_assoc] using solid

/-! ## Words read as plain scalars -/

theorem plainPiece_word {inFlow : Bool} (word : ∀ ch ∈ text, isWordChar ch = true)
    (ends : plainPiece inFlow more = []) : plainPiece inFlow (text ++ more) = text := by
  induction text with
  | nil => exact ends
  | cons ch rest ih =>
    obtain ⟨first, others⟩ := List.forall_mem_cons.mp word
    have noColon : (ch == ':') = false := beq_eq_false_iff_ne.mpr (ne_of_isWordChar first rfl)
    have noIndicator : isFlowIndicator ch = false := contains_of_class first (by decide)
    rw [List.cons_append, plainPiece, isGap_of_isWordChar first, noColon, noIndicator, ih others]
    simp

/-- A colon before a gap ends a plain scalar. -/
theorem plainPiece_colon (inFlow : Bool) (gap : atGap more.head? = true) :
    plainPiece inFlow (':' :: more) = [] := by
  rw [plainPiece, endsPlain, gap]
  rfl

/-- A word is read up to a gap after which it cannot go on. -/
theorem readPlain_word {inFlow : Bool} (indent : Int) (isRest : c.rest = text ++ more)
    (word : isWord text = true) (ends : plainPiece inFlow more = []) {gap : PlainGap}
    (isGap : plainGap ⟨more, c.line, c.column + text.length, c.index + text.length⟩ = gap)
    (stops : gap.text = [] ∨ inFlow = false ∧ (gap.cursor.column : Int) < indent) :
    readPlain inFlow indent c = (text, gap.cursor, gap.broken) := by
  obtain ⟨starts, chars⟩ := isWord_iff.mp word
  have noComment : c.peek ≠ some '#' := fun isHead =>
    (head_of_startsSolid (startsSolid_of_startsWord (startsWord_append starts more)) '#'
      (by rw [← isRest]; exact isHead)).2.1 rfl
  have advanced := Cursor.advance_of_takesColumn isRest fun ch member => by
    rw [Cursor.takesColumn, isBreak_of_isWordChar (chars ch member),
      bne_iff_ne.mpr (ne_of_isWordChar (chars ch member) rfl)]
    rfl
  have piece := plainPiece_word chars ends
  have nonempty := ne_nil_of_isWord word
  have ended : (gap.text.isEmpty || gap.cursor.peek == some '#' ||
      (!inFlow && decide ((gap.cursor.column : Int) < indent))) = true := by
    rcases stops with none | ⟨rfl, left⟩
    · rw [none]
      rfl
    · rw [decide_eq_true left]
      simp
  rw [readPlain, plainRest, if_neg noComment, isRest, piece]
  split
  · next isNil => exact absurd rfl nonempty
  · simp only [advanced, isGap, ended, if_true, List.nil_append]

theorem plainGap_mark {ch : Char} (isRest : c.rest = ch :: more) (noGap : isGap ch = false) :
    plainGap c = ⟨[], c, false⟩ := by
  have noSpace : ∀ other, c.rest.head? = some other → (other == ' ') = false := by
    intro other isHead
    rw [isRest] at isHead
    obtain rfl := Option.some.inj isHead
    rw [beq_eq_false_iff_ne]
    rintro rfl
    cases noGap
  have noBreak := Cursor.lineBreak?_of_head (c := c) fun other isHead => by
    rw [isRest] at isHead
    obtain rfl := Option.some.inj isHead
    exact (Bool.or_eq_false_iff.mp noGap).2
  have none : c.ahead (· == ' ') = [] := by
    rw [Cursor.ahead, isRest]
    exact List.takeWhile_cons_of_neg (by rw [noSpace ch (by rw [isRest]; rfl)]; exact Bool.false_ne_true)
  simp only [plainGap, Cursor.skipSpaces, Cursor.skip_of_head noSpace, noBreak, none]

/-- A line break after a word counts as a space. -/
theorem plainGap_newLine {n : Nat} (isRest : c.rest = newLine n ++ more)
    (starts : startsLine more = true) :
    plainGap c = ⟨[' '], ⟨more, c.line + 1, n, c.index + 1 + n⟩, true⟩ := by
  have head := head_of_startsSolid (startsSolid_of_startsLine starts)
  have noSpace : ∀ other, c.rest.head? = some other → (other == ' ') = false := by
    intro other isHead
    rw [isRest] at isHead
    obtain rfl := Option.some.inj isHead
    rfl
  have broken : c.lineBreak? =
      some ('\n', ⟨List.replicate n ' ' ++ more, c.line + 1, 0, c.index + 1⟩) :=
    Cursor.lineBreak?_of_lineFeed isRest
  have noMarker := atDocumentMarker_of_startsLine
    (c := ⟨List.replicate n ' ' ++ more, c.line + 1, 0, c.index + 1⟩) rfl starts
  have noBreak : (⟨more, c.line + 1, n, c.index + 1 + n⟩ : Cursor).lineBreak? = none :=
    Cursor.lineBreak?_of_head fun ch isHead => (Bool.or_eq_false_iff.mp (head ch isHead).1).2
  have skipped := Cursor.skipSpaces_of_spaces
    (c := ⟨List.replicate n ' ' ++ more, c.line + 1, 0, c.index + 1⟩) rfl fun isHead => by
      cases (head ' ' isHead).1
  rw [Nat.zero_add] at skipped
  have folded (fuel : Nat) (enough : (List.replicate n ' ' ++ more).length ≤ fuel) :
      foldBreaks fuel ⟨List.replicate n ' ' ++ more, c.line + 1, 0, c.index + 1⟩ =
        (some [], ⟨more, c.line + 1, n, c.index + 1 + n⟩) := by
    cases fuel with
    | zero =>
      obtain ⟨noSpaces, rfl⟩ := List.append_eq_nil_iff.mp (List.eq_nil_of_length_eq_zero
        (Nat.le_zero.mp enough))
      cases n with
      | zero => rfl
      | succ n => cases noSpaces
    | succ fuel => simp only [foldBreaks, skipped, noBreak]
  simp only [plainGap, Cursor.skipSpaces, Cursor.skip_of_head noSpace, broken, noMarker,
    folded _ (Nat.le_refl _)]
  rfl

/-! ## Spots -/

/-- What is known of a lexer. Inside brackets, of which there is one pair at most, the column says
nothing. -/
structure Spot where
  rest : List Char
  column : Nat
  /-- The tokens so far, the last one first. -/
  tokens : List Token
  inFlow : Bool
  indent : Int
  outer : List Int
  allowKey : Bool

namespace Lexer

/-- The lexer is at a spot. Outside of brackets no key has started, and inside of them none has to
follow. -/
structure At (l : Lexer) (s : Spot) : Prop where
  rest : l.cursor.rest = s.rest
  column : s.inFlow = false → l.cursor.column = s.column
  tokens : l.tokens = s.tokens
  count : l.count = s.tokens.length
  depth : l.depth = if s.inFlow then 1 else 0
  indent : l.indent = s.indent
  outer : l.outer = s.outer
  allowKey : l.allowKey = s.allowKey
  starts : ∀ start ∈ l.starts, s.inFlow = true ∧ start.1 = 1 ∧ start.2.required = false

variable {l l' : Lexer} {s t u : Spot}

theorem At.inFlow (at_ : l.At s) : l.inFlow = s.inFlow := by
  rw [Lexer.inFlow, at_.depth]
  cases s.inFlow <;> rfl

theorem At.starts_eq_nil (at_ : l.At s) (block : s.inFlow = false) : l.starts = [] := by
  refine List.eq_nil_iff_forall_not_mem.mpr fun start member => ?_
  have inFlow := (at_.starts start member).1
  rw [block] at inFlow
  cases inFlow

/-- Outside of brackets only the line and the index are not known. -/
theorem At.eq_of_block (at_ : l.At s) (block : s.inFlow = false) : ∃ line index,
    l = ⟨⟨s.rest, line, s.column, index⟩, s.tokens, s.tokens.length, 0, s.indent, s.outer,
      s.allowKey, []⟩ := by
  have noStarts := at_.starts_eq_nil block
  obtain ⟨rest, column, tokens, _, indent, outer, allowKey⟩ := s
  cases block
  obtain ⟨⟨_, line, _, index⟩, _, _, _, _, _, _, _⟩ := l
  cases noStarts
  cases at_.rest
  cases at_.column rfl
  cases at_.tokens
  cases at_.count
  cases at_.depth
  cases at_.indent
  cases at_.outer
  cases at_.allowKey
  exact ⟨line, index, rfl⟩

/-- No key has to follow, so all may be forgotten. -/
theorem At.forgetKey (at_ : l.At s) : l.forgetKey = .ok { l with starts := [] } := by
  have noneLeft : l.starts.filter (·.1 != l.depth) = [] := by
    rw [List.filter_eq_nil_iff]
    intro start member
    obtain ⟨inFlow, isOne, _⟩ := at_.starts start member
    simp [at_.depth, inFlow, isOne]
  rw [Lexer.forgetKey, noneLeft, if_neg]
  intro required
  obtain ⟨start, member, blocks⟩ := List.any_eq_true.mp required
  simp [(at_.starts start member).2.2] at blocks

/-- Between brackets a key may start anywhere. -/
theorem At.rememberKey (at_ : l.At s) (inFlow : s.inFlow = true) :
    ∃ l', l.rememberKey = .ok l' ∧ l'.At s ∧ l'.cursor = l.cursor := by
  have inside : l.inFlow = true := at_.inFlow.trans inFlow
  rw [Lexer.rememberKey]
  split
  · rw [at_.forgetKey]
    refine ⟨_, rfl, ?_, rfl⟩
    refine { at_ with starts := List.forall_mem_singleton.mpr ⟨inFlow, ?_, ?_⟩ }
    · show l.depth = 1
      rw [at_.depth, inFlow]
      rfl
    · show (!l.inFlow && _) = false
      rw [inside]
      rfl
  · exact ⟨l, rfl, at_, rfl⟩

/-! ### Rounds -/

theorem skipGap_of_startsSolid (inFlow : Bool) (fuel : Nat) (allowKey : Bool)
    (solid : startsSolid c.rest = true) : skipGap inFlow fuel c allowKey = (c, allowKey) := by
  cases fuel with
  | zero => rfl
  | succ fuel =>
    have head := head_of_startsSolid solid
    have noSpace : c.skipSpaces = c := Cursor.skip_of_head fun ch isHead => by
      rw [beq_eq_false_iff_ne]
      rintro rfl
      cases (head ' ' isHead).1
    have noComment : c.peek ≠ some '#' := fun isHead => (head '#' isHead).2.1 rfl
    have noBreak : c.lineBreak? = none := Cursor.lineBreak?_of_head fun ch isHead =>
      (Bool.or_eq_false_iff.mp (head ch isHead).1).2
    simp only [skipGap, noSpace, if_neg noComment, noBreak]

/-- Spaces are skipped. -/
theorem skipGap_spaces {n : Nat} (inFlow : Bool) (fuel : Nat) (allowKey : Bool)
    (isRest : c.rest = List.replicate n ' ' ++ more) (solid : startsSolid more = true) :
    skipGap inFlow (fuel + 1) c allowKey =
      (⟨more, c.line, c.column + n, c.index + n⟩, allowKey) := by
  have head := head_of_startsSolid solid
  have skipped := Cursor.skipSpaces_of_spaces isRest fun isHead => by cases (head ' ' isHead).1
  have noComment : more.head? ≠ some '#' := fun isHead => (head '#' isHead).2.1 rfl
  have noBreak : (⟨more, c.line, c.column + n, c.index + n⟩ : Cursor).lineBreak? = none :=
    Cursor.lineBreak?_of_head fun ch isHead => (Bool.or_eq_false_iff.mp (head ch isHead).1).2
  simp only [skipGap, skipped, Cursor.peek, if_neg noComment, noBreak]

/-- A line break and the indentation after it are skipped. -/
theorem skipGap_newLine {n : Nat} (inFlow : Bool) (fuel : Nat) (allowKey : Bool)
    (isRest : c.rest = newLine n ++ more) (solid : startsSolid more = true) :
    skipGap inFlow (fuel + 2) c allowKey =
      (⟨more, c.line + 1, n, c.index + 1 + n⟩, allowKey || !inFlow) := by
  have isHead : c.rest.head? = some '\n' := by
    rw [isRest]
    rfl
  have noSpace : c.skipSpaces = c := Cursor.skip_of_head fun ch isCh => by
    rw [isHead] at isCh
    cases isCh
    rfl
  have noComment : c.peek ≠ some '#' := by
    rw [Cursor.peek, isHead]
    nofun
  have broken := Cursor.lineBreak?_of_lineFeed isRest
  have spaces : skipGap inFlow (fuel + 1) ⟨List.replicate n ' ' ++ more, c.line + 1, 0, c.index + 1⟩
      (allowKey || !inFlow) = (⟨more, c.line + 1, n, c.index + 1 + n⟩, allowKey || !inFlow) := by
    rw [skipGap_spaces _ _ _ rfl solid, Nat.zero_add]
  rw [skipGap, noSpace, if_neg noComment, broken]
  exact spaces

theorem toNextToken_of_skipGap {allowKey : Bool}
    (noMark : l.cursor.rest.head? ≠ some byteOrderMark)
    (skips : skipGap l.inFlow (l.cursor.rest.length + 1) l.cursor l.allowKey = (c, allowKey)) :
    l.toNextToken = { l with cursor := c, allowKey := allowKey } := by
  have noMark : ¬(l.cursor.index = 0 ∧ l.cursor.peek = some byteOrderMark) := fun both =>
    noMark both.2
  rw [toNextToken, if_neg noMark]
  simp only [skips]

theorem toNextToken_of_startsSolid (solid : startsSolid l.cursor.rest = true) :
    l.toNextToken = l :=
  toNextToken_of_skipGap (fun isHead => (head_of_startsSolid solid _ isHead).2.2 rfl)
    (skipGap_of_startsSolid _ _ _ solid)

/-- A lexer settles where it gets by skipping a gap. -/
theorem settle_of_toNextToken (skips : l.toNextToken = l') (solid : startsSolid l'.cursor.rest = true) :
    l.settle = l'.settle := by
  rw [Lexer.settle, Lexer.settle, skips, toNextToken_of_startsSolid solid]

theorem unwind_of_le {column : Int} (inside : l.inFlow = true ∨ l.indent ≤ column) :
    l.unwind column = l := by
  rw [unwind]
  split
  · rfl
  · next block =>
    have low : ¬column < l.indent := by
      rcases inside with inFlow | low
      · exact absurd inFlow block
      · omega
    unfold closeBlocks
    split
    · rfl
    · exact if_neg low

theorem At.dropStale (at_ : l.At s) :
    ∃ l', l.dropStale = .ok l' ∧ l'.At s ∧ l'.cursor = l.cursor := by
  have noneRequired (stale : KeyStart → Bool) :
      ¬(l.starts.any fun start => stale start.2 && start.2.required) = true := by
    rw [Bool.not_eq_true, List.any_eq_false]
    intro start member
    simp [(at_.starts start member).2.2]
  unfold Lexer.dropStale
  dsimp only
  rw [if_neg (noneRequired fun key => key.line != l.cursor.line ||
    decide (keyLimit < l.cursor.index - key.index))]
  exact ⟨_, rfl, { at_ with
    starts := fun start member => at_.starts start (List.mem_filter.mp member).1 }, rfl⟩

/-- Before a solid text that no block ends at, a lexer stays where it is. -/
theorem At.settle (at_ : l.At s) (solid : startsSolid s.rest = true)
    (inside : s.inFlow = true ∨ s.indent ≤ s.column) :
    ∃ l', l.settle = .ok l' ∧ l'.At s ∧ l'.cursor = l.cursor := by
  rw [← at_.rest] at solid
  obtain ⟨l', dropped, there, same⟩ := at_.dropStale
  have stays : l'.unwind l'.cursor.column = l' := by
    refine unwind_of_le ?_
    rw [there.inFlow, there.indent]
    cases block : s.inFlow with
    | true => exact .inl rfl
    | false =>
      rw [there.column block]
      exact .inr (inside.resolve_left (by rw [block]; exact Bool.false_ne_true))
  refine ⟨l', ?_, there, same⟩
  rw [Lexer.settle, toNextToken_of_startsSolid solid, dropped]
  exact congrArg Except.ok stays

/-- Outside of brackets, where no key has started, settling ends blocks. -/
theorem settle_of_block (noStarts : l.starts = []) (solid : startsSolid l.cursor.rest = true) :
    l.settle = .ok (l.unwind l.cursor.column) := by
  have dropped : l.dropStale = .ok l := by
    obtain ⟨cursor, tokens, count, depth, indent, outer, allowKey, starts⟩ := l
    cases noStarts
    rfl
  rw [Lexer.settle, toNextToken_of_startsSolid solid, dropped]
  rfl

/-- One round before a character. -/
theorem run_of_token {ch : Char} {fuel : Nat} (settled : l.settle = .ok l')
    (isHead : l'.cursor.peek = some ch) {next : Lexer} (read : l'.token ch = .ok next) :
    run (fuel + 1) l = run fuel next := by
  simp only [run, settled, bind, Except.bind, isHead, read]

/-- What settles alike goes on alike. -/
theorem run_of_settle (same : l.settle = l'.settle) (fuel : Nat) : run fuel l = run fuel l' := by
  cases fuel with
  | zero => rfl
  | succ fuel => rw [run, run, same]

/-! ### Tokens -/

theorem plain_eq {broken : Bool} (isRemembered : l.rememberKey = .ok l')
    (read : readPlain l'.inFlow (l'.indent + 1) l'.cursor = (text, c, broken)) :
    l.plain = .ok { (l'.emit (.scalar true text)).moveTo c with allowKey := broken } := by
  rw [plain, isRemembered]
  simp only [bind, Except.bind, read]
  rfl

theorem token_colon (isRest : l.cursor.rest = ':' :: more) (gap : atGap more.head? = true) :
    l.token ':' = l.value := by
  have isAfter : l.cursor.peekAt 1 = more.head? := by
    rw [Cursor.peekAt, isRest, List.head?_eq_getElem?]
    rfl
  simp [token, isAfter, gap, Cursor.atMarker_of_head isRest]

theorem token_item (isRest : l.cursor.rest = '-' :: ' ' :: more) : l.token '-' = l.item := by
  have noMarker (mark : Char) : l.cursor.atMarker mark = false := by
    refine Cursor.atMarker_eq_false fun tail same => ?_
    rw [isRest] at same
    obtain ⟨rfl, same⟩ := List.cons.inj same
    cases same
  have isAfter : l.cursor.peekAt 1 = some ' ' := by
    rw [Cursor.peekAt, isRest]
    rfl
  simp [token, isAfter, atGap, endsWith, isGap, noMarker]

theorem token_open (isRest : l.cursor.rest = '[' :: more) :
    l.token '[' = l.openBracket .flowSequenceStart := by
  simp [token, Cursor.atMarker_of_head isRest]

theorem token_close (isRest : l.cursor.rest = ']' :: more) :
    l.token ']' = l.closeBracket .flowSequenceEnd := by
  simp [token, Cursor.atMarker_of_head isRest]

theorem token_comma (isRest : l.cursor.rest = ',' :: more) : l.token ',' = l.comma := by
  simp [token, Cursor.atMarker_of_head isRest]

/-- A plain scalar starts where a word does. -/
theorem token_word (starts : startsWord l.cursor.rest = true) {ch : Char}
    (isHead : l.cursor.rest.head? = some ch) : l.token ch = l.plain := by
  have noMarker (mark : Char) (isMark : mark = '-' ∨ mark = '.') : l.cursor.atMarker mark = false := by
    refine Cursor.atMarker_eq_false fun tail same => ?_
    rw [same] at starts
    rcases isMark with rfl | rfl <;> cases starts
  rcases startsWord_cases starts with ⟨first, rest, isRest, alnum⟩ | ⟨first, rest, isRest, alnum⟩
  · rw [isRest] at isHead
    obtain rfl := Option.some.inj isHead
    have other (mark : Char) (isMark : isLetterOrDigit mark = false) : first ≠ mark :=
      ne_of_class alnum isMark
    have plain (inFlow : Bool) (after : Option Char) : startsPlain inFlow first after = true := by
      rw [startsPlain, isGap_of_isWordChar (isWordChar_of_isLetterOrDigit alnum),
        isIndicator_of_isLetterOrDigit alnum]
      rfl
    simp only [token, other '%' rfl, other '[' rfl, other '{' rfl, other ']' rfl, other '}' rfl,
      other ',' rfl, other '-' rfl, other '?' rfl, other ':' rfl, other '*' rfl, other '&' rfl,
      other '!' rfl, other '|' rfl, other '>' rfl, other '\'' rfl, other '"' rfl,
      noMarker '-' (.inl rfl), noMarker '.' (.inr rfl), plain, false_and, and_false, if_false,
      or_self, if_true, Bool.false_eq_true]
  · rw [isRest] at isHead
    obtain rfl := Option.some.inj isHead
    have isAfter : l.cursor.peekAt 1 = some first := by
      rw [Cursor.peekAt, isRest]
      rfl
    have noGap : atGap (some first) = false :=
      isGap_of_isWordChar (isWordChar_of_isLetterOrDigit alnum)
    have plain (inFlow : Bool) : startsPlain inFlow '-' (some first) = true := by
      rw [startsPlain, noGap]
      rfl
    simp [token, isAfter, noGap, noMarker '-' (.inl rfl), noMarker '.' (.inr rfl), plain]

end Lexer

end TrainingCollar.Yaml
