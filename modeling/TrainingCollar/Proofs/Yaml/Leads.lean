import TrainingCollar.Proofs.Yaml.Scan

/-! # Getting from one spot to another

One spot `Leads` to another if the lexer gets from any state at the first to a state at the second. Each
kind of mark and of gap has a rule of its own, and rules are chained by `Leads.trans`.
-/

namespace TrainingCollar.Yaml

variable {text more : List Char}

/-- From any state at the first spot the lexer gets to one at the second. -/
def Spot.Leads (s t : Spot) : Prop :=
  ∀ (l : Lexer) (fuel : Nat), l.At s → s.rest.length < fuel → ∃ (l' : Lexer) (fuel' : Nat),
    l'.At t ∧ t.rest.length < fuel' ∧ Lexer.run fuel l = Lexer.run fuel' l'

namespace Spot

open Lexer

variable {s t u : Spot}

theorem Leads.refl (s : Spot) : s.Leads s := fun l fuel at_ enough => ⟨l, fuel, at_, enough, rfl⟩

theorem Leads.trans (first : s.Leads t) (second : t.Leads u) : s.Leads u := by
  intro l fuel at_ enough
  obtain ⟨l', fuel', there, enough, same⟩ := first l fuel at_ enough
  obtain ⟨l'', fuel'', further, enough, same'⟩ := second l' fuel' there enough
  exact ⟨l'', fuel'', further, enough, same.trans same'⟩

/-- What one round does before a solid text. -/
theorem leads_of_token {ch : Char} {rest : List Char} (isRest : s.rest = ch :: rest)
    (solid : startsSolid s.rest = true) (inside : s.inFlow = true ∨ s.indent ≤ s.column)
    (shorter : t.rest.length < s.rest.length)
    (reads : ∀ l : Lexer, l.At s → ∃ next, l.token ch = .ok next ∧ next.At t) : s.Leads t := by
  intro l fuel at_ enough
  obtain ⟨l', settled, there, _⟩ := at_.settle solid inside
  obtain ⟨next, read, further⟩ := reads l' there
  have isHead : l'.cursor.peek = some ch := by
    rw [Cursor.peek, there.rest, isRest]
    rfl
  cases fuel with
  | zero => exact absurd enough (Nat.not_lt_zero _)
  | succ fuel => exact ⟨next, fuel, further, by omega, run_of_token settled isHead read⟩

/-- What one round does before a word. -/
theorem leads_of_plain (starts : startsWord s.rest = true)
    (inside : s.inFlow = true ∨ s.indent ≤ s.column) (shorter : t.rest.length < s.rest.length)
    (reads : ∀ l : Lexer, l.At s → ∃ next, l.plain = .ok next ∧ next.At t) : s.Leads t := by
  obtain ⟨first, rest, isRest⟩ := List.exists_cons_of_ne_nil (ne_nil_of_startsWord starts)
  refine leads_of_token isRest (startsSolid_of_startsWord starts) inside shorter fun l at_ => ?_
  rw [token_word (by rw [at_.rest]; exact starts) (by rw [at_.rest, isRest]; rfl)]
  exact reads l at_

/-- What is skipped without a round. -/
theorem leads_of_settle (shorter : t.rest.length ≤ s.rest.length)
    (skips : ∀ l : Lexer, l.At s → ∃ l' : Lexer, l'.At t ∧ l.settle = l'.settle) : s.Leads t := by
  intro l fuel at_ enough
  obtain ⟨l', there, same⟩ := skips l at_
  exact ⟨l', fuel, there, by omega, run_of_settle same fuel⟩

/-! ### Gaps -/

variable {column n : Nat} {tokens : List Token} {inFlow allowKey : Bool} {indent : Int}
  {outer : List Int}

/-- Spaces are skipped. -/
theorem leads_spaces (solid : startsSolid more = true) :
    Leads ⟨List.replicate n ' ' ++ more, column, tokens, inFlow, indent, outer, allowKey⟩
      ⟨more, column + n, tokens, inFlow, indent, outer, allowKey⟩ := by
  refine leads_of_settle (by simp) fun l at_ => ?_
  have noMark : l.cursor.rest.head? ≠ some byteOrderMark := by
    rw [at_.rest]
    cases n with
    | zero => exact fun isHead => (head_of_startsSolid solid _ isHead).2.2 rfl
    | succ n => nofun
  refine ⟨_, ?_, settle_of_toNextToken
    (toNextToken_of_skipGap noMark (skipGap_spaces _ _ _ at_.rest solid)) solid⟩
  exact { at_ with
    rest := rfl
    column := fun block => congrArg (· + n) (at_.column block) }

/-- After a line break outside of brackets a key may start. -/
theorem leads_newLine (solid : startsSolid more = true) :
    Leads ⟨newLine n ++ more, column, tokens, inFlow, indent, outer, allowKey⟩
      ⟨more, n, tokens, inFlow, indent, outer, allowKey || !inFlow⟩ := by
  refine leads_of_settle (by simp) fun l at_ => ?_
  have noMark : l.cursor.rest.head? ≠ some byteOrderMark := by
    rw [at_.rest]
    nofun
  obtain ⟨fuel, isFuel⟩ : ∃ fuel, l.cursor.rest.length + 1 = fuel + 2 := by
    rw [at_.rest]
    exact ⟨_, rfl⟩
  have skips := skipGap_newLine l.inFlow fuel l.allowKey at_.rest solid
  rw [← isFuel] at skips
  refine ⟨_, ?_, settle_of_toNextToken (toNextToken_of_skipGap noMark skips) solid⟩
  exact { at_ with
    rest := rfl
    column := fun _ => rfl
    allowKey := by rw [at_.allowKey, at_.inFlow] }

/-- A block to the right of what comes next has ended. -/
theorem leads_blockEnd {around : Int} (solid : startsSolid more = true) (ends : column < indent) :
    Leads ⟨more, column, tokens, false, indent, around :: outer, allowKey⟩
      ⟨more, column, .blockEnd :: tokens, false, around, outer, allowKey⟩ := by
  refine leads_of_settle (Nat.le_refl _) fun l at_ => ?_
  obtain ⟨line, index, rfl⟩ := at_.eq_of_block rfl
  refine ⟨⟨⟨more, line, column, index⟩, .blockEnd :: tokens, tokens.length + 1, 0, around, outer,
    allowKey, []⟩, ?_, ?_⟩
  · exact ⟨rfl, fun _ => rfl, rfl, rfl, rfl, rfl, rfl, rfl, List.forall_mem_nil _⟩
  · rw [settle_of_block rfl solid, settle_of_block rfl solid]
    exact congrArg Except.ok (if_pos ends)

/-! ### Sequences in brackets -/

/-- A bracket opens where no key may start. -/
theorem leads_open (inside : indent ≤ column) :
    Leads ⟨'[' :: more, column, tokens, false, indent, outer, false⟩
      ⟨more, column + 1, .flowSequenceStart :: tokens, true, indent, outer, true⟩ := by
  refine leads_of_token rfl rfl (.inr inside) (Nat.lt_succ_self _) fun l at_ => ?_
  have noKey : l.rememberKey = .ok l := by
    rw [rememberKey, at_.allowKey]
    rfl
  have moved := Cursor.next_of_takesColumn at_.rest rfl
  rw [token_open at_.rest, openBracket, noKey]
  refine ⟨_, rfl, ?_⟩
  exact { at_ with
    rest := congrArg Cursor.rest moved
    column same := by cases same
    tokens := congrArg (Token.flowSequenceStart :: ·) at_.tokens
    count := congrArg (· + 1) at_.count
    depth := congrArg (· + 1) at_.depth
    allowKey := rfl
    starts := by
      show ∀ start ∈ l.starts, _
      rw [at_.starts_eq_nil rfl]
      exact List.forall_mem_nil _ }

/-- A word between brackets. -/
theorem leads_flowWord {ch : Char} (word : isWord text = true) (isMark : ch = ',' ∨ ch = ']') :
    Leads ⟨text ++ ch :: more, column, tokens, true, indent, outer, true⟩
      ⟨ch :: more, column, .scalar true text :: tokens, true, indent, outer, false⟩ := by
  have starts := startsWord_append (isWord_iff.mp word).1 (ch :: more)
  refine leads_of_plain starts (.inl rfl) ?_ fun l at_ => ?_
  · exact length_lt_of_isWord word _
  obtain ⟨remembered, isRemembered, there, _⟩ := at_.rememberKey rfl
  have noGap : isGap ch = false := by rcases isMark with rfl | rfl <;> rfl
  have ends : plainPiece true (ch :: more) = [] := by
    rcases isMark with rfl | rfl <;> rfl
  have read := readPlain_word (remembered.indent + 1) there.rest word ends
    (plainGap_mark rfl noGap) (.inl rfl)
  rw [plain, isRemembered]
  simp only [bind, Except.bind, there.inFlow, read]
  refine ⟨_, rfl, ?_⟩
  exact { there with
    rest := rfl
    column same := by cases same
    tokens := congrArg (Token.scalar true text :: ·) there.tokens
    count := congrArg (· + 1) there.count
    allowKey := rfl }

theorem leads_comma :
    Leads ⟨',' :: more, column, tokens, true, indent, outer, allowKey⟩
      ⟨more, column, .comma :: tokens, true, indent, outer, true⟩ := by
  refine leads_of_token rfl rfl (.inl rfl) (Nat.lt_succ_self _) fun l at_ => ?_
  have allowed : { l with allowKey := true }.At
      ⟨',' :: more, column, tokens, true, indent, outer, true⟩ := { at_ with allowKey := rfl }
  have moved := Cursor.next_of_takesColumn at_.rest rfl
  rw [token_comma at_.rest, comma, allowed.forgetKey]
  refine ⟨_, rfl, ?_⟩
  exact { at_ with
    rest := congrArg Cursor.rest moved
    column same := by cases same
    tokens := congrArg (Token.comma :: ·) at_.tokens
    count := congrArg (· + 1) at_.count
    allowKey := rfl
    starts := List.forall_mem_nil _ }

/-- After a closing bracket the line ends. -/
theorem leads_close (solid : startsSolid more = true) :
    Leads ⟨']' :: (newLine n ++ more), column, tokens, true, indent, outer, allowKey⟩
      ⟨more, n, .flowSequenceEnd :: tokens, false, indent, outer, true⟩ := by
  intro l fuel at_ enough
  obtain ⟨settled, isSettled, there, _⟩ := at_.settle rfl (.inl rfl)
  have isHead : settled.cursor.peek = some ']' := by
    rw [Cursor.peek, there.rest]
    rfl
  have moved := Cursor.next_of_takesColumn there.rest rfl
  have deep : ¬settled.depth = 0 := by
    rw [there.depth]
    exact Nat.one_ne_zero
  obtain ⟨next, read, further⟩ : ∃ next, settled.token ']' = .ok next ∧
      next.At ⟨newLine n ++ more, settled.cursor.column + 1, .flowSequenceEnd :: tokens, false, indent,
        outer, false⟩ := by
    rw [token_close there.rest, closeBracket, there.forgetKey]
    simp only [bind, Except.bind, if_neg deep]
    refine ⟨_, rfl, ?_⟩
    exact { there with
      rest := congrArg Cursor.rest moved
      column := fun _ => congrArg Cursor.column moved
      tokens := congrArg (Token.flowSequenceEnd :: ·) there.tokens
      count := congrArg (· + 1) there.count
      depth := congrArg (· - 1) there.depth
      allowKey := rfl
      starts := List.forall_mem_nil _ }
  cases fuel with
  | zero => exact absurd enough (Nat.not_lt_zero _)
  | succ fuel =>
    obtain ⟨l', fuel', further, enough, same⟩ :=
      leads_newLine solid next fuel further (Nat.lt_of_succ_lt_succ enough)
    exact ⟨l', fuel', further, enough, (run_of_token isSettled isHead read).trans same⟩

/-! ### Entries and items -/

/-- A word as a value, and the line break after it. -/
theorem leads_valueWord (word : isWord text = true) (inside : indent ≤ column) (left : n ≤ indent)
    (starts : startsLine more = true) :
    Leads ⟨text ++ (newLine n ++ more), column, tokens, false, indent, outer, false⟩
      ⟨more, n, .scalar true text :: tokens, false, indent, outer, true⟩ := by
  have starts' := startsWord_append (isWord_iff.mp word).1 (newLine n ++ more)
  refine leads_of_plain starts' (.inr inside) ?_ fun l at_ => ?_
  · have shorter := length_lt_of_isWord word (newLine n ++ more)
    have parts : (newLine n ++ more).length = (newLine n).length + more.length := List.length_append
    show more.length < (text ++ (newLine n ++ more)).length
    omega
  have noKey : l.rememberKey = .ok l := by
    rw [rememberKey, at_.allowKey]
    rfl
  have right : (n : Int) < l.indent + 1 := by
    rw [at_.indent]
    show (n : Int) < indent + 1
    omega
  have read := readPlain_word _ at_.rest word rfl (plainGap_newLine rfl starts) (.inr ⟨rfl, right⟩)
  rw [plain, noKey]
  simp only [bind, Except.bind, at_.inFlow, read]
  refine ⟨_, rfl, ?_⟩
  exact { at_ with
    rest := rfl
    column := fun _ => rfl
    tokens := congrArg (Token.scalar true text :: ·) at_.tokens
    count := congrArg (· + 1) at_.count
    allowKey := rfl }

/-- A dash before an item of a sequence that needs no indentation. -/
theorem leads_item :
    Leads ⟨'-' :: ' ' :: more, column, tokens, false, column, outer, true⟩
      ⟨' ' :: more, column + 1, .item :: tokens, false, column, outer, true⟩ := by
  refine leads_of_token rfl rfl (.inr (Int.le_refl _)) (Nat.lt_succ_self _) fun l at_ => ?_
  have block : l.inFlow = false := at_.inFlow
  have allowed : l.allowKey = true := at_.allowKey
  have same : l.openBlock l.cursor.column l.count .sequenceStart = l := by
    rw [openBlock, at_.indent, at_.column rfl]
    exact if_neg (Int.lt_irrefl _)
  have at_' : { l with allowKey := true }.At
      ⟨'-' :: ' ' :: more, column, tokens, false, column, outer, true⟩ := { at_ with allowKey := rfl }
  have moved := Cursor.next_of_takesColumn at_.rest rfl
  rw [token_item at_.rest, item, block, allowed]
  simp only [Bool.not_false, Bool.not_true, Bool.and_false, Bool.false_eq_true, if_false, same,
    at_'.forgetKey]
  refine ⟨_, rfl, ?_⟩
  exact { at_ with
    rest := congrArg Cursor.rest moved
    column := fun _ => by
      show l.cursor.next.column = _
      rw [moved, at_.column rfl]
    tokens := congrArg (Token.item :: ·) at_.tokens
    count := congrArg (· + 1) at_.count
    allowKey := rfl
    starts := List.forall_mem_nil _ }

section Key

variable (more) (line column index : Nat) (text : List Char) (tokens : List Token) (indent : Int)
  (outer : List Int)

/-- The lexer after a word that may be a key. -/
def afterKey : Lexer :=
  ⟨⟨':' :: more, line, column + text.length, index + text.length⟩, .scalar true text :: tokens,
    tokens.length + 1, 0, indent, outer, false,
    [(0, ⟨tokens.length, indent == (column : Int), index, line, column⟩)]⟩

theorem plain_of_key (word : isWord text = true) (gap : atGap more.head? = true) :
    Lexer.plain ⟨⟨text ++ ':' :: more, line, column, index⟩, tokens, tokens.length, 0, indent, outer,
      true, []⟩ = .ok (afterKey more line column index text tokens indent outer) := by
  have read := readPlain_word _ (c := ⟨text ++ ':' :: more, line, column, index⟩) rfl word
    (plainPiece_colon false gap) (plainGap_mark rfl rfl)
    (.inl rfl : _ ∨ false = false ∧ _ < indent + 1)
  exact (plain_eq (l := ⟨⟨text ++ ':' :: more, line, column, index⟩, tokens, tokens.length, 0, indent,
    outer, true, []⟩) rfl read).trans rfl

theorem settle_of_key (short : text.length ≤ keyLimit) (inside : indent ≤ column) :
    (afterKey more line column index text tokens indent outer).settle =
      .ok (afterKey more line column index text tokens indent outer) := by
  have near : ¬keyLimit < text.length := Nat.not_lt.mpr short
  have stays := unwind_of_le (l := afterKey more line column index text tokens indent outer)
    (.inr (by
      show indent ≤ ((column + text.length : Nat) : Int)
      omega))
  have dropped : (afterKey more line column index text tokens indent outer).dropStale =
      .ok (afterKey more line column index text tokens indent outer) := by
    simp [dropStale, afterKey, near]
  rw [Lexer.settle, toNextToken_of_startsSolid rfl, dropped]
  exact congrArg Except.ok stays

theorem value_of_key (inside : indent ≤ column) :
    (afterKey more line column index text tokens indent outer).value =
      .ok ⟨⟨more, line, column + text.length + 1, index + text.length + 1⟩,
        .value :: .scalar true text :: .key ::
          (if indent < column then .mappingStart :: tokens else tokens),
        tokens.length + (if indent < column then 4 else 3), 0, column,
        if indent < column then indent :: outer else outer, false, []⟩ := by
  have moved := Cursor.next_of_takesColumn
    (c := ⟨':' :: more, line, column + text.length, index + text.length⟩) rfl rfl
  have one : tokens.length + 1 - tokens.length = 1 := by omega
  have two : tokens.length + 1 + 1 - tokens.length = 2 := by omega
  by_cases opens : indent < column
  · simp [value, afterKey, insertAt, Lexer.inFlow, openBlock, opens, one, two, emit, moveTo, moved]
  · obtain rfl : indent = column := by omega
    simp [value, afterKey, insertAt, Lexer.inFlow, openBlock, one, emit, moveTo, moved]

end Key

/-- A key with its colon. The first key of a mapping starts a block. -/
theorem leads_key (word : isWord text = true) (short : text.length ≤ keyLimit)
    (inside : indent ≤ column) (gap : atGap more.head? = true) :
    Leads ⟨text ++ ':' :: more, column, tokens, false, indent, outer, true⟩
      ⟨more, column + text.length + 1,
        .value :: .scalar true text :: .key ::
          (if indent < column then .mappingStart :: tokens else tokens),
        false, column, if indent < column then indent :: outer else outer, false⟩ := by
  intro l fuel at_ enough
  obtain ⟨line, index, rfl⟩ := at_.eq_of_block rfl
  have starts := startsWord_append (isWord_iff.mp word).1 (':' :: more)
  obtain ⟨ch, rest, isRest⟩ := List.exists_cons_of_ne_nil (ne_nil_of_startsWord starts)
  -- The first round reads the word, the second one finds that it is a key.
  have settled := settle_of_block (l := ⟨⟨text ++ ':' :: more, line, column, index⟩, tokens,
    tokens.length, 0, indent, outer, true, []⟩) rfl (startsSolid_of_startsWord starts)
  rw [unwind_of_le (.inr inside)] at settled
  have first := (token_word starts (by rw [isRest]; rfl)).trans
    (plain_of_key more line column index text tokens indent outer word gap)
  have settled' := settle_of_key more line column index text tokens indent outer short inside
  have second := (token_colon rfl gap).trans
    (value_of_key more line column index text tokens indent outer inside)
  have length : (text ++ ':' :: more).length = text.length + (more.length + 1) := by
    rw [List.length_append, List.length_cons]
  have positive := List.length_pos_iff.mpr (ne_nil_of_isWord word)
  obtain ⟨fuel, rfl⟩ : ∃ fuel', fuel = fuel' + 2 := ⟨fuel - 2, by
    have : (text ++ ':' :: more).length < fuel := enough
    omega⟩
  refine ⟨_, fuel, ?_, ?_, (run_of_token settled (by rw [Cursor.peek, isRest]; rfl) first).trans
    (run_of_token settled' rfl second)⟩
  · refine ⟨rfl, fun _ => rfl, rfl, ?_, rfl, rfl, rfl, rfl, List.forall_mem_nil _⟩
    show tokens.length + (if indent < column then 4 else 3) = List.length (_ :: _ :: _ :: _)
    split <;> rfl
  · have : (text ++ ':' :: more).length < fuel + 2 := enough
    show more.length < fuel
    omega

/-- At the end of a text the block at its left margin ends. -/
theorem run_of_end {l : Lexer} {fuel : Nat}
    (at_ : l.At ⟨[], 0, tokens, false, 0, [-1], allowKey⟩) :
    run (fuel + 1) l = .ok (.streamEnd :: .blockEnd :: tokens) := by
  obtain ⟨line, index, rfl⟩ := at_.eq_of_block rfl
  have settled := settle_of_block (l := ⟨⟨[], line, 0, index⟩, tokens, tokens.length, 0, 0, [-1],
    allowKey, []⟩) rfl rfl
  rw [run, settled]
  rfl

end Spot

end TrainingCollar.Yaml
