import TrainingCollar.Proofs.Yaml.Sheet

/-! # The tree of a sheet

The tokens of a sheet are read as the sheet they are the tokens of, so that a sheet is found again in
its text: `IsSheet.documentOf_render`.
-/

namespace TrainingCollar.Yaml.Node

variable {node : Node} {rest : List Token} {spare : Nat}

/-! ## Words and rows -/

theorem read_cell (fuel : Nat) (place : Place) (text : List Char) (rest : List Token) :
    read [] (fuel + 1) place (.scalar true text :: rest) = .ok (ofWord text, rest) := rfl

theorem readFlowItems_words (words : List (List Char)) (first : Bool) (fuel : Nat)
    (enough : words.length < fuel) (rest : List Token) :
    readFlowItems [] fuel first (flowTokens first (words.map wordScalar) ++ rest) =
      .ok (words.map ofWord, rest) := by
  induction words generalizing fuel first with
  | nil =>
    cases fuel with
    | zero => exact absurd enough (Nat.not_lt_zero _)
    | succ fuel => rfl
  | cons word others ih =>
    rw [List.length_cons] at enough
    obtain ⟨fuel, rfl⟩ : ∃ fuel', fuel = fuel' + 2 := ⟨fuel - 2, by omega⟩
    have further := ih false (fuel + 1) (by omega)
    have step : readFlowItems [] (fuel + 2) first
        (flowTokens first ((word :: others).map wordScalar) ++ rest) =
          (readFlowItems [] (fuel + 1) false (flowTokens false (others.map wordScalar) ++ rest) >>=
            fun read => pure (ofWord word :: read.1, read.2)) := by
      cases first <;> rfl
    rw [step, further]
    rfl

theorem length_lt_flowTokens (words : List (List Char)) (first : Bool) :
    words.length < (flowTokens first (words.map wordScalar)).length := by
  induction words generalizing first with
  | nil => exact Nat.zero_lt_one
  | cons word others ih =>
    have further := ih false
    rw [List.map_cons, wordScalar, flowTokens, List.length_append, List.length_cons, List.length_cons]
    omega

/-! ## Values under keys -/

/-- What follows a key or ends a mapping. -/
def entryStops : List Token := [.key, .value, .blockEnd]

/-- Under a key the tokens of a node are read as the node, within as many rounds as there are tokens
and some to spare. -/
structure Parses (spare : Nat) (node : Node) : Prop where
  starts : ∀ rest, startsWith entryStops (node.tokens ++ rest) = false
  read : ∀ {fuel : Nat} {rest : List Token}, node.tokens.length + spare < fuel → rest.head? ≠ some .item →
    Node.read [] fuel .entry (node.tokens ++ rest) = .ok (node, rest)

theorem parses_leaf (spare : Nat) (leaf : IsLeaf node) : node.Parses spare := by
  rcases leaf with ⟨text, word, rfl⟩ | ⟨words, all, rfl⟩
  · refine ⟨fun _ => rfl, fun {fuel rest} enough _ => ?_⟩
    cases fuel with
    | zero => exact absurd enough (Nat.not_lt_zero _)
    | succ fuel => exact read_cell fuel .entry text rest
  · have isTokens : (Node.sequence none .seq (words.map ofWord)).tokens =
        .flowSequenceStart :: flowTokens true (words.map wordScalar) := by
      rw [Node.tokens, scalars?_ofWords]
    have few : words.length < (flowTokens true (words.map wordScalar)).length :=
      length_lt_flowTokens words true
    refine ⟨fun rest => by rw [isTokens]; rfl, fun {fuel rest} enough _ => ?_⟩
    rw [isTokens] at enough ⊢
    cases fuel with
    | zero => exact absurd enough (Nat.not_lt_zero _)
    | succ fuel =>
      rw [List.length_cons] at enough
      have enough : (flowTokens true (words.map wordScalar)).length < fuel := by omega
      have items := readFlowItems_words words true fuel (Nat.lt_trans few enough) rest
      show (readFlowItems [] fuel true (flowTokens true (words.map wordScalar) ++ rest) >>=
        fun read => pure (Node.sequence none .seq read.1, read.2)) = _
      rw [items]
      rfl

/-! ## Mappings and tables -/

/-- The tokens of entries are read as the entries. -/
theorem readPairs_entries (pairs : List (Node × Node))
    (parses : ∀ pair ∈ pairs, IsName pair.1 ∧ pair.2.Parses spare) (fuel : Nat)
    (enough : (entryTokens pairs).length + spare < fuel) (rest : List Token) :
    readPairs [] fuel (entryTokens pairs ++ .blockEnd :: rest) = .ok (pairs, rest) := by
  induction pairs generalizing fuel with
  | nil => cases fuel <;> rfl
  | cons pair others ih =>
    obtain ⟨⟨⟨text, name, isKey⟩, isFirst⟩, parsesOthers⟩ := List.forall_mem_cons.mp parses
    obtain ⟨key, value⟩ := pair
    obtain rfl : key = ofWord text := isKey
    replace isFirst : value.Parses spare := isFirst
    have length : (entryTokens ((ofWord text, value) :: others)).length =
        value.tokens.length + (entryTokens others).length + 3 := by
      simp only [entryTokens, ofWord, Node.tokens, List.length_cons, List.length_append, List.length_nil]
      omega
    rw [length] at enough
    obtain ⟨fuel, rfl⟩ : ∃ fuel', fuel = fuel' + 3 := ⟨fuel - 3, by omega⟩
    have further := ih parsesOthers (fuel + 2) (by omega)
    have noItem : (entryTokens others ++ .blockEnd :: rest).head? ≠ some .item := by
      intro same
      cases others <;> cases same
    have isValue : readUnless [] (fuel + 1) .entry entryStops
        (value.tokens ++ (entryTokens others ++ .blockEnd :: rest)) =
          .ok (value, entryTokens others ++ .blockEnd :: rest) := by
      rw [readUnless, isFirst.starts]
      exact isFirst.read (by omega) noItem
    show readPairs [] (fuel + 3) (.key :: .scalar true text :: .value ::
      ((value.tokens ++ entryTokens others) ++ .blockEnd :: rest)) = _
    rw [List.append_assoc]
    show (readUnless [] (fuel + 1) .entry entryStops
        (value.tokens ++ (entryTokens others ++ .blockEnd :: rest)) >>= fun read =>
      readPairs [] (fuel + 2) read.2 >>= fun others =>
        pure ((ofWord text, read.1) :: others.1, others.2)) = _
    rw [isValue]
    show (readPairs [] (fuel + 2) (entryTokens others ++ .blockEnd :: rest) >>= fun others =>
      pure ((ofWord text, value) :: others.1, others.2)) = _
    rw [further]
    rfl

/-- The tokens of a mapping outside of brackets are read as the mapping. -/
theorem read_mapping (place : Place) (outside : place ≠ .flow) {pairs : List (Node × Node)}
    (parses : ∀ pair ∈ pairs, IsName pair.1 ∧ pair.2.Parses spare) (fuel : Nat)
    (enough : (Node.mapping none .map pairs).tokens.length + spare ≤ fuel) (rest : List Token) :
    read [] fuel place ((Node.mapping none .map pairs).tokens ++ rest) =
      .ok (.mapping none .map pairs, rest) := by
  have isTokens : (Node.mapping none .map pairs).tokens ++ rest =
      .mappingStart :: (entryTokens pairs ++ .blockEnd :: rest) := by
    rw [Node.tokens, List.cons_append, List.append_assoc, List.singleton_append]
  have length : (Node.mapping none .map pairs).tokens.length = (entryTokens pairs).length + 2 := by
    rw [Node.tokens, List.length_cons, List.length_append, List.length_singleton]
  rw [length] at enough
  obtain ⟨fuel, rfl⟩ : ∃ fuel', fuel = fuel' + 1 := ⟨fuel - 1, by omega⟩
  have entries := readPairs_entries pairs parses fuel (by omega) rest
  have step : read [] (fuel + 1) place (.mappingStart :: (entryTokens pairs ++ .blockEnd :: rest)) =
      readPairs [] fuel (entryTokens pairs ++ .blockEnd :: rest) >>= fun read =>
        pure (.mapping none .map read.1, read.2) := by
    cases place with
    | flow => exact absurd rfl outside
    | block => rfl
    | entry => rfl
  rw [isTokens, step, entries]
  rfl

/-- Items end before what is no dash. -/
theorem readOpenItems_nil {fuel : Nat} (ends : rest.head? ≠ some .item) :
    readOpenItems [] fuel rest = .ok ([], rest) := by
  unfold readOpenItems
  split
  · exact absurd rfl ends
  · exact absurd rfl ends
  · rfl

/-- The tokens of the items of a table are read as the items. -/
theorem readOpenItems_records (items : List Node) (records : ∀ item ∈ items, IsRecord IsLeaf item)
    (fuel : Nat) (enough : (itemTokens items).length < fuel) (ends : rest.head? ≠ some .item) :
    readOpenItems [] fuel (itemTokens items ++ rest) = .ok (items, rest) := by
  induction items generalizing fuel with
  | nil => exact readOpenItems_nil ends
  | cons item others ih =>
    obtain ⟨⟨pairs, named, _, rfl⟩, recordsOthers⟩ := List.forall_mem_cons.mp records
    have parses : ∀ pair ∈ pairs, IsName pair.1 ∧ pair.2.Parses 0 := fun pair member =>
      ⟨(named pair member).1, parses_leaf 0 (named pair member).2⟩
    have length : (itemTokens (.mapping none .map pairs :: others)).length =
        (Node.mapping none .map pairs).tokens.length + (itemTokens others).length + 1 := by
      rw [itemTokens, List.length_cons, List.length_append]
    have positive : 0 < (Node.mapping none .map pairs).tokens.length := by
      rw [Node.tokens]
      exact Nat.succ_pos _
    rw [length] at enough
    obtain ⟨fuel, rfl⟩ : ∃ fuel', fuel = fuel' + 2 := ⟨fuel - 2, by omega⟩
    have further := ih recordsOthers (fuel + 1) (by omega)
    have record := read_mapping .block (by decide) parses fuel (by omega) (itemTokens others ++ rest)
    rw [itemTokens, List.cons_append, List.append_assoc]
    show (Node.read [] fuel .block ((Node.mapping none .map pairs).tokens ++ (itemTokens others ++ rest)) >>=
      fun read => readOpenItems [] (fuel + 1) read.2 >>= fun others =>
        pure (read.1 :: others.1, others.2)) = _
    rw [record]
    show (readOpenItems [] (fuel + 1) (itemTokens others ++ rest) >>= fun others =>
      pure (Node.mapping none .map pairs :: others.1, others.2)) = _
    rw [further]
    rfl

theorem parses_table (table : IsTable node) : node.Parses 1 := by
  obtain ⟨first, others, records, rfl⟩ := table
  have isTokens : (Node.sequence none .seq (first :: others)).tokens = itemTokens (first :: others) := by
    rw [Node.tokens, scalars?_of_isRecord (records first List.mem_cons_self)]
  refine ⟨fun rest => by rw [isTokens]; rfl, fun {fuel rest} enough ends => ?_⟩
  rw [isTokens] at enough ⊢
  cases fuel with
  | zero => exact absurd enough (Nat.not_lt_zero _)
  | succ fuel =>
    show (readOpenItems [] fuel (itemTokens (first :: others) ++ rest) >>= fun read =>
      pure (Node.sequence none .seq read.1, read.2)) = _
    have items := readOpenItems_records (first :: others) records fuel (by omega) ends
    rw [items]
    rfl

/-! ## Sheets -/

/-- The tokens of a mapping and the end of the text are a document. -/
theorem documentOfTokens_mapping {pairs : List (Node × Node)}
    (parses : ∀ pair ∈ pairs, IsName pair.1 ∧ pair.2.Parses 1) :
    documentOfTokens ((Node.mapping none .map pairs).tokens ++ [Token.streamEnd]) =
      .ok (some (.mapping none .map pairs)) := by
  have read := read_mapping .block nofun parses
    (4 * ((Node.mapping none .map pairs).tokens ++ [Token.streamEnd]).length + 4)
    (by rw [List.length_append]; omega) [.streamEnd]
  have step : documentOfTokens ((Node.mapping none .map pairs).tokens ++ [Token.streamEnd]) =
      Node.read [] (4 * ((Node.mapping none .map pairs).tokens ++ [Token.streamEnd]).length + 4) .block
        ((Node.mapping none .map pairs).tokens ++ [Token.streamEnd]) >>= fun read =>
          endDocument read.2 >>= fun _ => pure (some read.1) := by
    rw [Node.tokens]
    rfl
  rw [step, read]
  rfl

/-- A sheet is found again in its text. -/
theorem IsSheet.documentOf_render (sheet : IsSheet node) :
    documentOf node.render = .ok (some node) := by
  have isTokens := sheet.tokensOf_render
  obtain ⟨pairs, named, _, rfl⟩ := sheet
  rw [documentOf, isTokens]
  exact documentOfTokens_mapping fun pair member =>
    ⟨(named pair member).1, (named pair member).2.elim (parses_leaf 1) parses_table⟩

end TrainingCollar.Yaml.Node
