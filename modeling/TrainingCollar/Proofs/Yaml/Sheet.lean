import TrainingCollar.Proofs.Yaml.Leads
import TrainingCollar.Yaml.Printer

/-! # Sheets

A *sheet* is a mapping of names to cells, rows of cells and tables, where a cell is a word and a table
a sequence of mappings of names to cells and rows. Configurations are written as sheets. The lexer
finds in the text of a sheet the tokens of its tree: `IsSheet.tokensOf_render`.
-/

namespace TrainingCollar.Yaml.Node

/-! ## Tokens of a node -/

/-- The tokens of a sequence of scalars, from an item on. -/
def flowTokens (first : Bool) : List Scalar → List Token
  | [] => [.flowSequenceEnd]
  | (_, text) :: rest =>
    (if first then [] else [.comma]) ++ .scalar true text :: flowTokens false rest

mutual

/-- The tokens of a node whose scalars are plain and whose sequences are in brackets or under keys. -/
def tokens : Node → List Token
  | .alias name => [.alias name]
  | .scalar _ _ text => [.scalar true text]
  | .sequence _ _ items =>
    match scalars? items with
    | some scalars => .flowSequenceStart :: flowTokens true scalars
    | none => itemTokens items
  | .mapping _ _ pairs => .mappingStart :: (entryTokens pairs ++ [.blockEnd])

/-- The tokens of items after dashes. -/
def itemTokens : List Node → List Token
  | [] => []
  | item :: rest => .item :: (tokens item ++ itemTokens rest)

/-- The tokens of entries with keys before colons. -/
def entryTokens : List (Node × Node) → List Token
  | [] => []
  | (key, value) :: rest => .key :: (tokens key ++ .value :: (tokens value ++ entryTokens rest))

end

/-! ## Kinds of nodes -/

/-- The scalar of a word. -/
def ofWord (text : List Char) : Node := .scalar none (.ofPlain text) text

/-- A word. -/
def IsCell (node : Node) : Prop := ∃ text, isWord text = true ∧ node = ofWord text

/-- The longest name. -/
def nameLimit : Nat := 100

/-- A short word that is no number. -/
structure IsNameText (text : List Char) : Prop where
  word : isWord text = true
  short : text.length ≤ nameLimit
  isText : Tag.ofPlain text = .str

/-- The name of an entry. -/
def IsName (node : Node) : Prop := ∃ text, IsNameText text ∧ node = ofWord text

/-- A sequence of words. -/
def IsRow (node : Node) : Prop := ∃ words : List (List Char),
  (∀ word ∈ words, isWord word = true) ∧ node = .sequence none .seq (words.map ofWord)

/-- A mapping of names to nodes of a kind, not all of which are scalars. -/
def IsRecord (kind : Node → Prop) (node : Node) : Prop := ∃ pairs,
  (∀ pair ∈ pairs, IsName pair.1 ∧ kind pair.2) ∧ (∃ pair ∈ pairs, pair.2.scalar? = none) ∧
    node = .mapping none .map pairs

/-- A word or a sequence of words. -/
def IsLeaf (node : Node) : Prop := IsCell node ∨ IsRow node

/-- A sequence of mappings of names to words and sequences of words. -/
def IsTable (node : Node) : Prop := ∃ first rest,
  (∀ item ∈ first :: rest, IsRecord IsLeaf item) ∧ node = .sequence none .seq (first :: rest)

/-- The root of a sheet. -/
def IsSheet (node : Node) : Prop := IsRecord (fun node => IsLeaf node ∨ IsTable node) node

/-! ## What is written in brackets -/

variable {node key value : Node} {items : List Node} {pairs rest : List (Node × Node)}
  {kind : Node → Prop} {text more : List Char} {words : List (List Char)} {column n indent : Nat}
  {tokens : List Token} {outer : List Int}

/-- The scalar of a word. -/
def wordScalar (text : List Char) : Scalar := (.ofPlain text, text)

theorem scalars?_ofWords (words : List (List Char)) :
    scalars? (words.map ofWord) = some (words.map wordScalar) := by
  induction words with
  | nil => rfl
  | cons text rest ih =>
    rw [scalars?, List.map_cons, List.mapM_cons, ← scalars?, ih]
    rfl

theorem mapM_eq_none {α β : Type} {f : α → Option β} {list : List α} {x : α} (member : x ∈ list)
    (fails : f x = none) : list.mapM f = none := by
  induction list with
  | nil => cases member
  | cons first rest ih =>
    rw [List.mapM_cons]
    rcases List.mem_cons.mp member with rfl | later
    · rw [fails]
      rfl
    · rw [ih later]
      cases f first <;> rfl

theorem scalarPairs?_eq_none (wide : ∃ pair ∈ pairs, pair.2.scalar? = none) :
    scalarPairs? pairs = none := by
  obtain ⟨⟨key, value⟩, member, noScalar⟩ := wide
  refine mapM_eq_none member ?_
  show (key.scalar?.bind fun key => value.scalar?.bind fun value => some (key, value)) = none
  rw [noScalar]
  cases key.scalar? <;> rfl

/-- A row is written in brackets. -/
theorem text_row (column indent : Nat) (words : List (List Char)) :
    Node.text (.key column) indent (.sequence none .seq (words.map ofWord)) =
      ' ' :: '[' :: flowItems (indent + 2) true (column + 2) (words.map wordScalar) := by
  rw [Node.text, flowSequence?, scalars?_ofWords]
  rfl

theorem text_cell (column indent : Nat) (word : isWord text = true) :
    Node.text (.key column) indent (ofWord text) = ' ' :: text := by
  rw [ofWord, Node.text, scalarText_word _ _ _ _ word]
  rfl

/-- A name stands before a colon. -/
theorem blockKey?_name (indent : Nat) (name : IsNameText text) :
    blockKey? indent (ofWord text) = some text := by
  have short : isShortKey (Tag.ofPlain text, text) = true := by
    have notEmpty : text.isEmpty = false := List.isEmpty_eq_false_iff.mpr (ne_nil_of_isWord name.word)
    have narrow : tagWidth .str + text.length < keyWidth :=
      Nat.lt_of_le_of_lt (Nat.add_le_add_left name.short _) (by decide)
    rw [isShortKey, name.isText, notEmpty, isMultiline_of_isWord name.word, decide_eq_true narrow]
    rfl
  rw [ofWord, blockKey?, if_pos short, scalarText_word _ _ _ _ name.word]

theorem blockEntries_cons (first : Bool) (name : IsNameText text) (value : Node)
    (rest : List (Node × Node)) :
    blockEntries indent first ((ofWord text, value) :: rest) =
      (if first then [] else newLine indent) ++
        (text ++ ':' :: (Node.text (.key (indent + text.length + 1)) indent value ++
          blockEntries indent false rest)) := by
  rw [blockEntries, blockKey?_name indent name]
  simp only [List.append_assoc, List.cons_append]

/-! ## Scanning -/

/-- After a key in a mapping at an indentation the lexer finds the tokens of a node, up to the
next line. -/
def Scans (indent : Nat) (node : Node) : Prop :=
  ∀ (column n : Nat) (tokens : List Token) (outer : List Int) (more : List Char),
    indent ≤ column → n ≤ indent → startsLine more = true →
      Spot.Leads
        ⟨Node.text (.key column) indent node ++ (newLine n ++ more), column, tokens, false, indent, outer,
          false⟩
        ⟨more, n, node.tokens.reverse ++ tokens, false, indent, outer, true⟩

theorem scans_cell (word : isWord text = true) : (ofWord text).Scans indent := by
  intro column n tokens outer more inside left starts
  rw [text_cell _ _ word]
  have solid := startsSolid_of_startsWord (startsWord_append (isWord_iff.mp word).1 (newLine n ++ more))
  have space : Spot.Leads
      ⟨' ' :: (text ++ (newLine n ++ more)), column, tokens, false, indent, outer, false⟩
      ⟨text ++ (newLine n ++ more), column + 1, tokens, false, indent, outer, false⟩ :=
    Spot.leads_spaces (n := 1) solid
  exact space.trans (Spot.leads_valueWord word (by omega) (by omega) starts)

/-- What comes before an item in brackets is skipped. -/
theorem leads_gapBefore (indent width at_ : Nat) (first : Bool) (tokens : List Token) (around : Int)
    (outer : List Int) (allowKey : Bool) {more : List Char} (solid : startsSolid more = true) :
    ∃ here, Spot.Leads
      ⟨gapBefore indent width first ++ more, at_, tokens, true, around, outer, allowKey⟩
      ⟨more, here, tokens, true, around, outer, allowKey⟩ := by
  unfold gapBefore
  split
  · have skipped : Spot.Leads
        ⟨newLine indent ++ more, at_, tokens, true, around, outer, allowKey⟩
        ⟨more, indent, tokens, true, around, outer, allowKey || !true⟩ := Spot.leads_newLine solid
    rw [Bool.not_true, Bool.or_false] at skipped
    exact ⟨_, skipped⟩
  · split
    · exact ⟨_, Spot.Leads.refl _⟩
    · exact ⟨_, Spot.leads_spaces (n := 1) solid⟩

/-- The rest of a sequence in brackets starts with a comma or a bracket. -/
theorem flowItems_head (indent column : Nat) (words : List (List Char)) :
    ∃ ch rest, flowItems indent false column (words.map wordScalar) = ch :: rest ∧
      (ch = ',' ∨ ch = ']') := by
  cases words with
  | nil => exact ⟨_, _, rfl, .inr rfl⟩
  | cons word rest => exact ⟨_, _, rfl, .inl rfl⟩

theorem flowItems_cons (indent column : Nat) (first : Bool) (word : isWord text = true)
    (rest : List (List Char)) :
    ∃ width column', flowItems indent first column ((text :: rest).map wordScalar) =
      (if first then [] else [',']) ++ (gapBefore indent width first ++
        (text ++ flowItems indent false column' (rest.map wordScalar))) := by
  rw [List.map_cons, wordScalar, flowItems, scalarText_word _ _ _ _ word]
  simp only [List.append_assoc]
  exact ⟨_, _, rfl⟩

/-- The lexer finds the tokens of a sequence in brackets, however it is broken into lines. -/
theorem leads_flowItems {indent : Nat} {around : Int} {n : Nat} {outer : List Int} {more : List Char}
    (words : List (List Char)) (all : ∀ word ∈ words, isWord word = true)
    (solid : startsSolid more = true) (first : Bool) (column at_ : Nat) (tokens : List Token) :
    Spot.Leads
      ⟨flowItems indent first column (words.map wordScalar) ++ (newLine n ++ more), at_, tokens, true,
        around, outer, first⟩
      ⟨more, n, (flowTokens first (words.map wordScalar)).reverse ++ tokens, false, around, outer,
        true⟩ := by
  induction words generalizing first column at_ tokens with
  | nil => exact Spot.leads_close solid
  | cons word rest ih =>
    obtain ⟨isFirst, others⟩ := List.forall_mem_cons.mp all
    obtain ⟨width, column', isText⟩ := flowItems_cons indent column first isFirst rest
    obtain ⟨ch, tail, isTail, isMark⟩ := flowItems_head indent column' rest
    have afterComma (tokens : List Token) (at_ : Nat) : Spot.Leads
        ⟨gapBefore indent width first ++ (word ++ (ch :: tail ++ (newLine n ++ more))), at_, tokens, true,
          around, outer, true⟩
        ⟨more, n, (flowTokens false (rest.map wordScalar)).reverse ++ .scalar true word :: tokens, false,
          around, outer, true⟩ := by
      obtain ⟨here, gap⟩ := leads_gapBefore indent width at_ first tokens around outer true
        (startsSolid_of_startsWord
          (startsWord_append (isWord_iff.mp isFirst).1 (ch :: tail ++ (newLine n ++ more))))
      refine gap.trans ((Spot.leads_flowWord isFirst isMark).trans ?_)
      have others := ih others false column' here (.scalar true word :: tokens)
      rw [isTail] at others
      exact others
    rw [isText, isTail, List.map_cons, wordScalar, flowTokens]
    cases first with
    | true => simpa using afterComma tokens at_
    | false => simpa using Spot.leads_comma.trans (afterComma (.comma :: tokens) at_)

theorem scans_row (all : ∀ word ∈ words, isWord word = true) :
    (Node.sequence none .seq (words.map ofWord)).Scans indent := by
  intro column n tokens outer more inside left starts
  have space : Spot.Leads
      ⟨' ' :: '[' :: (flowItems (indent + 2) true (column + 2) (words.map wordScalar) ++ (newLine n ++ more)),
        column, tokens, false, indent, outer, false⟩
      ⟨'[' :: (flowItems (indent + 2) true (column + 2) (words.map wordScalar) ++ (newLine n ++ more)),
        column + 1, tokens, false, indent, outer, false⟩ :=
    Spot.leads_spaces (n := 1) rfl
  have open_ := space.trans (Spot.leads_open (by omega))
  have rest := open_.trans (leads_flowItems words all (startsSolid_of_startsLine starts) true _ _ _)
  rw [text_row, Node.tokens, scalars?_ofWords]
  simpa using rest

theorem scans_leaf (leaf : IsLeaf node) : node.Scans indent := by
  rcases leaf with ⟨text, word, rfl⟩ | ⟨words, all, rfl⟩
  · exact scans_cell word
  · exact scans_row all

/-- What follows a key is separated from its colon. -/
theorem atGap_text (column indent : Nat) (node : Node) (more : List Char) :
    atGap (Node.text (.key column) indent node ++ more).head? = true := by
  cases node with
  | sequence anchor tag items =>
    rw [Node.text]
    split <;> rfl
  | mapping anchor tag pairs =>
    rw [Node.text]
    split <;> rfl
  | _ => rfl

/-- The first of some entries starts the line that the others start after a line break. -/
theorem blockEntries_first (indent : Nat) (named : ∀ pair ∈ pairs, IsName pair.1) (nonempty : pairs ≠ []) :
    blockEntries indent false pairs = newLine indent ++ blockEntries indent true pairs ∧
      ∀ more, startsLine (blockEntries indent true pairs ++ more) = true := by
  cases pairs with
  | nil => exact absurd rfl nonempty
  | cons pair rest =>
    obtain ⟨⟨text, name, isKey⟩, _⟩ := List.forall_mem_cons.mp named
    obtain ⟨key, value⟩ := pair
    obtain rfl : key = ofWord text := isKey
    rw [blockEntries_cons _ name, blockEntries_cons _ name]
    refine ⟨rfl, fun more => ?_⟩
    simp only [if_true, List.nil_append, List.append_assoc]
    exact startsLine_of_startsWord (startsWord_append (isWord_iff.mp name.word).1 _)

/-- The lexer finds the tokens of the entries of a mapping; the first of them may start a block. -/
theorem leads_blockEntries {n : Nat} {more : List Char} (pairs : List (Node × Node))
    (scans : ∀ pair ∈ pairs, IsName pair.1 ∧ pair.2.Scans indent) (nonempty : pairs ≠ [])
    (left : n ≤ indent) (starts : startsLine more = true) (around : Int) (inside : around ≤ indent)
    (tokens : List Token) (outer : List Int) :
    Spot.Leads
      ⟨blockEntries indent true pairs ++ (newLine n ++ more), indent, tokens, false, around, outer, true⟩
      ⟨more, n,
        (entryTokens pairs).reverse ++ (if around < indent then .mappingStart :: tokens else tokens),
        false, indent, if around < indent then around :: outer else outer, true⟩ := by
  induction pairs generalizing around tokens outer with
  | nil => exact absurd rfl nonempty
  | cons pair rest ih =>
    obtain ⟨⟨⟨text, name, isKey⟩, isFirst⟩, others⟩ := List.forall_mem_cons.mp scans
    obtain ⟨key, value⟩ := pair
    obtain rfl : key = ofWord text := isKey
    have gap := atGap_text (indent + text.length + 1) indent value
      (blockEntries indent false rest ++ (newLine n ++ more))
    have starting : Spot.Leads ⟨_, indent, tokens, false, around, outer, true⟩ _ :=
      Spot.leads_key name.word (Nat.le_trans name.short (by decide)) inside gap
    rw [blockEntries_cons true name]
    simp only [if_true, List.nil_append, List.append_assoc, List.cons_append]
    refine starting.trans ?_
    generalize (if around < indent then Token.mappingStart :: tokens else tokens) = tokens
    generalize (if around < indent then around :: outer else outer) = outer
    have scanned := fun n more => isFirst (indent + text.length + 1) n
      (.value :: .scalar true text :: .key :: tokens) outer more (by omega)
    cases rest with
    | nil => simpa [entryTokens, ofWord, Node.tokens, blockEntries] using scanned n more left starts
    | cons pair rest =>
      obtain ⟨onNextLine, startsNext⟩ := blockEntries_first indent
        (fun pair member => (others pair member).1) (List.cons_ne_nil pair rest)
      rw [onNextLine, List.append_assoc]
      refine (scanned indent _ (Nat.le_refl indent) (startsNext (newLine n ++ more))).trans ?_
      have further := ih others (List.cons_ne_nil pair rest) indent (Int.le_refl _)
        (value.tokens.reverse ++ .value :: .scalar true text :: .key :: tokens) outer
      simpa [entryTokens, ofWord, Node.tokens] using further

/-! ## Tables -/

/-- A record after a dash starts in the same line. -/
theorem text_record (indent : Nat) (isRecord : IsRecord kind node) : ∃ pairs,
    (∀ pair ∈ pairs, IsName pair.1 ∧ kind pair.2) ∧ pairs ≠ [] ∧ node = .mapping none .map pairs ∧
      Node.text .mark indent node = ' ' :: blockEntries (indent + 2) true pairs := by
  obtain ⟨pairs, named, wide, rfl⟩ := isRecord
  refine ⟨pairs, named, ?_, rfl, ?_⟩
  · rintro rfl
    obtain ⟨_, member, _⟩ := wide
    cases member
  · rw [Node.text, flowMapping?, scalarPairs?_eq_none wide]
    rfl

/-- The lexer finds the tokens of a record after a dash, and the end of its block before a line that
starts further left. -/
theorem leads_record {n : Nat} {more : List Char} {pairs : List (Node × Node)}
    (named : ∀ pair ∈ pairs, IsName pair.1 ∧ IsLeaf pair.2) (some : pairs ≠ []) (left : n ≤ indent)
    (starts : startsLine more = true) (tokens : List Token) (outer : List Int) :
    Spot.Leads
      ⟨'-' :: ' ' :: (blockEntries (indent + 2) true pairs ++ (newLine n ++ more)), indent, tokens, false,
        indent, outer, true⟩
      ⟨more, n, .blockEnd :: ((entryTokens pairs).reverse ++ .mappingStart :: .item :: tokens), false,
        indent, outer, true⟩ := by
  have scans : ∀ pair ∈ pairs, IsName pair.1 ∧ pair.2.Scans (indent + 2) := fun pair member =>
    ⟨(named pair member).1, scans_leaf (named pair member).2⟩
  have solid := startsSolid_of_startsLine ((blockEntries_first (indent + 2)
    (fun pair member => (named pair member).1) some).2 (newLine n ++ more))
  have space : Spot.Leads
      ⟨' ' :: (blockEntries (indent + 2) true pairs ++ (newLine n ++ more)), indent + 1, .item :: tokens,
        false, indent, outer, true⟩
      ⟨blockEntries (indent + 2) true pairs ++ (newLine n ++ more), indent + 2, .item :: tokens,
        false, indent, outer, true⟩ := Spot.leads_spaces (n := 1) solid
  have entries := leads_blockEntries pairs scans some (Nat.le_add_right_of_le left) starts indent
    (by omega) (.item :: tokens) outer
  rw [if_pos (by omega), if_pos (by omega)] at entries
  exact (Spot.leads_item.trans (space.trans entries)).trans
    (Spot.leads_blockEnd (startsSolid_of_startsLine starts) (by omega))

/-- The items of a table stand in lines of their own. -/
theorem blockItems_first (indent : Nat) {items : List Node}
    (records : ∀ item ∈ items, IsRecord IsLeaf item) (nonempty : items ≠ []) :
    blockItems indent false items = newLine indent ++ blockItems indent true items ∧
      ∀ more, startsLine (blockItems indent true items ++ more) = true := by
  obtain ⟨item, rest, rfl⟩ := List.exists_cons_of_ne_nil nonempty
  obtain ⟨_, _, _, rfl, isText⟩ := text_record indent (records item List.mem_cons_self)
  rw [blockItems, blockItems, isText]
  exact ⟨rfl, fun _ => rfl⟩

/-- The lexer finds the tokens of the items of a table. -/
theorem leads_blockItems {n : Nat} {more : List Char} (items : List Node)
    (records : ∀ item ∈ items, IsRecord IsLeaf item) (nonempty : items ≠ []) (left : n ≤ indent)
    (starts : startsLine more = true) (tokens : List Token) (outer : List Int) :
    Spot.Leads
      ⟨blockItems indent true items ++ (newLine n ++ more), indent, tokens, false, indent, outer, true⟩
      ⟨more, n, (itemTokens items).reverse ++ tokens, false, indent, outer, true⟩ := by
  induction items generalizing tokens with
  | nil => exact absurd rfl nonempty
  | cons item rest ih =>
    obtain ⟨isRecord, others⟩ := List.forall_mem_cons.mp records
    obtain ⟨pairs, named, some, rfl, isText⟩ := text_record indent isRecord
    rw [blockItems, isText]
    simp only [if_true, List.nil_append, List.append_assoc, List.cons_append]
    cases rest with
    | nil =>
      simpa [itemTokens, Node.tokens, blockItems] using leads_record named some left starts tokens outer
    | cons next rest =>
      obtain ⟨onNextLine, startsNext⟩ := blockItems_first indent others (List.cons_ne_nil next rest)
      rw [onNextLine, List.append_assoc]
      refine (leads_record named some (Nat.le_refl _) (startsNext _) tokens outer).trans ?_
      have further := ih others (List.cons_ne_nil next rest)
        (.blockEnd :: ((entryTokens pairs).reverse ++ .mappingStart :: .item :: tokens))
      simpa [itemTokens, Node.tokens] using further

theorem scalars?_of_isRecord {item : Node} (isRecord : IsRecord kind item) (rest : List Node) :
    scalars? (item :: rest) = none := by
  obtain ⟨pairs, _, _, rfl⟩ := isRecord
  exact mapM_eq_none List.mem_cons_self rfl

/-- A table starts in the line after its key. -/
theorem text_table {first : Node} (column indent : Nat) (isRecord : IsRecord kind first)
    (rest : List Node) : Node.text (.key column) indent (.sequence none .seq (first :: rest)) =
      newLine indent ++ blockItems indent true (first :: rest) := by
  rw [Node.text, flowSequence?, scalars?_of_isRecord isRecord rest]
  rfl

theorem scans_table (table : IsTable node) : node.Scans indent := by
  obtain ⟨first, rest, records, rfl⟩ := table
  intro column n tokens outer more inside left starts
  have isRecord := records first List.mem_cons_self
  have solid : startsSolid (blockItems indent true (first :: rest) ++ (newLine n ++ more)) = true := by
    rw [blockItems]
    rfl
  have line : Spot.Leads
      ⟨newLine indent ++ (blockItems indent true (first :: rest) ++ (newLine n ++ more)), column, tokens,
        false, indent, outer, false⟩
      ⟨blockItems indent true (first :: rest) ++ (newLine n ++ more), indent, tokens, false, indent, outer,
        true⟩ := Spot.leads_newLine solid
  rw [text_table _ _ isRecord, List.append_assoc, Node.tokens, scalars?_of_isRecord isRecord rest]
  exact line.trans (leads_blockItems _ records (List.cons_ne_nil first rest) left starts tokens outer)

/-! ## Characters of sheets -/

/-- A text of visible characters, spaces and line feeds. -/
def Legible (text : List Char) : Prop := ∀ ch ∈ text, isPrintable ch = true ∨ ch = '\n'

@[simp] theorem legible_nil : Legible [] := List.forall_mem_nil _

@[simp] theorem legible_append {first second : List Char} :
    Legible (first ++ second) ↔ Legible first ∧ Legible second := List.forall_mem_append

@[simp] theorem legible_cons {ch : Char} {text : List Char} :
    Legible (ch :: text) ↔ (isPrintable ch = true ∨ ch = '\n') ∧ Legible text := List.forall_mem_cons

theorem legible_word (word : isWord text = true) : Legible text := fun ch member =>
  .inl (isPrintable_of_isWordChar ((isWord_iff.mp word).2 ch member))

@[simp] theorem legible_newLine (n : Nat) : Legible (newLine n) := by
  refine List.forall_mem_cons.mpr ⟨.inr rfl, fun ch member => .inl ?_⟩
  rw [List.eq_of_mem_replicate member]
  rfl

theorem legible_gapBefore (indent column : Nat) (first : Bool) :
    Legible (gapBefore indent column first) := by
  unfold gapBefore
  split
  · exact legible_newLine indent
  · split
    · exact legible_nil
    · exact legible_cons.mpr ⟨.inl rfl, legible_nil⟩

theorem legible_flowItems (words : List (List Char)) (all : ∀ word ∈ words, isWord word = true)
    (indent column : Nat) (first : Bool) :
    Legible (flowItems indent first column (words.map wordScalar)) := by
  induction words generalizing first column with
  | nil => exact legible_cons.mpr ⟨.inl rfl, legible_nil⟩
  | cons word rest ih =>
    obtain ⟨isFirst, others⟩ := List.forall_mem_cons.mp all
    obtain ⟨width, column', isText⟩ := flowItems_cons indent column first isFirst rest
    rw [isText]
    simp only [legible_append]
    refine ⟨?_, legible_gapBefore _ _ _, legible_word isFirst, ih others column' false⟩
    split
    · exact legible_nil
    · exact legible_cons.mpr ⟨.inl rfl, legible_nil⟩

theorem legible_leaf (leaf : IsLeaf node) (column indent : Nat) :
    Legible (Node.text (.key column) indent node) := by
  rcases leaf with ⟨text, word, rfl⟩ | ⟨words, all, rfl⟩
  · rw [text_cell _ _ word]
    exact legible_cons.mpr ⟨.inl rfl, legible_word word⟩
  · rw [text_row]
    exact legible_cons.mpr ⟨.inl rfl, legible_cons.mpr ⟨.inl rfl, legible_flowItems words all _ _ _⟩⟩

theorem legible_blockEntries (indent : Nat) (pairs : List (Node × Node))
    (values : ∀ pair ∈ pairs, IsName pair.1 ∧ ∀ column, Legible (Node.text (.key column) indent pair.2))
    (first : Bool) : Legible (blockEntries indent first pairs) := by
  induction pairs generalizing first with
  | nil => exact legible_nil
  | cons pair rest ih =>
    obtain ⟨⟨⟨text, name, isKey⟩, isFirst⟩, others⟩ := List.forall_mem_cons.mp values
    obtain ⟨key, value⟩ := pair
    obtain rfl : key = ofWord text := isKey
    rw [blockEntries_cons _ name]
    simp only [legible_append, legible_cons]
    refine ⟨?_, legible_word name.word, .inl rfl, isFirst _, ih others false⟩
    split
    · exact legible_nil
    · exact legible_newLine indent

theorem legible_blockItems (items : List Node) (records : ∀ item ∈ items, IsRecord IsLeaf item)
    (first : Bool) : Legible (blockItems indent first items) := by
  induction items generalizing first with
  | nil => exact legible_nil
  | cons item rest ih =>
    obtain ⟨isRecord, others⟩ := List.forall_mem_cons.mp records
    obtain ⟨pairs, named, _, _, isText⟩ := text_record indent isRecord
    have entries := legible_blockEntries (indent + 2) pairs (fun pair member =>
      ⟨(named pair member).1, fun column => legible_leaf (named pair member).2 column _⟩) true
    rw [blockItems, isText]
    simp only [legible_append, legible_cons]
    refine ⟨?_, ⟨.inl rfl, .inl rfl, entries⟩, ih others false⟩
    split
    · exact legible_nil
    · exact legible_newLine indent

theorem legible_table (table : IsTable node) (column indent : Nat) :
    Legible (Node.text (.key column) indent node) := by
  obtain ⟨first, rest, records, rfl⟩ := table
  rw [text_table _ _ (records first List.mem_cons_self), legible_append]
  exact ⟨legible_newLine indent, legible_blockItems _ records true⟩

/-! ## Sheets -/

theorem IsSheet.render_eq (sheet : IsSheet node) : ∃ pairs,
    (∀ pair ∈ pairs, IsName pair.1 ∧ (IsLeaf pair.2 ∨ IsTable pair.2)) ∧ pairs ≠ [] ∧
      node = .mapping none .map pairs ∧ node.render = blockEntries 0 true pairs ++ ['\n'] := by
  obtain ⟨pairs, named, wide, rfl⟩ := sheet
  refine ⟨pairs, named, ?_, rfl, ?_⟩
  · rintro rfl
    obtain ⟨_, member, _⟩ := wide
    cases member
  · rw [render, Node.text, flowMapping?, scalarPairs?_eq_none wide]
    rfl

theorem IsSheet.legible_render (sheet : IsSheet node) : Legible node.render := by
  obtain ⟨pairs, named, _, _, isText⟩ := sheet.render_eq
  rw [isText, legible_append]
  refine ⟨legible_blockEntries 0 pairs (fun pair member => ⟨(named pair member).1, fun column => ?_⟩) true,
    legible_newLine 0⟩
  rcases (named pair member).2 with leaf | table
  · exact legible_leaf leaf column 0
  · exact legible_table table column 0

/-- The lexer finds the tokens of a sheet in its text. -/
theorem IsSheet.tokensOf_render (sheet : IsSheet node) :
    tokensOf node.render = .ok (node.tokens ++ [.streamEnd]) := by
  have legible := sheet.legible_render
  obtain ⟨pairs, named, some, rfl, isText⟩ := sheet.render_eq
  have readable : (Node.mapping none .map pairs).render.all isReadable = true := by
    refine List.all_eq_true.mpr fun ch member => ?_
    rcases legible ch member with printable | rfl
    · exact isReadable_of_isPrintable printable
    · rfl
  have scans : ∀ pair ∈ pairs, IsName pair.1 ∧ pair.2.Scans 0 := fun pair member =>
    ⟨(named pair member).1, (named pair member).2.elim scans_leaf scans_table⟩
  have starts : (Lexer.start (blockEntries 0 true pairs ++ ['\n'])).At
      ⟨blockEntries 0 true pairs ++ (newLine 0 ++ []), 0, [], false, -1, [], true⟩ :=
    ⟨rfl, fun _ => rfl, rfl, rfl, rfl, rfl, rfl, rfl, List.forall_mem_nil _⟩
  obtain ⟨last, fuel, at_, enough, same⟩ :=
    leads_blockEntries pairs scans some (Nat.le_refl 0) rfl (-1) (by decide) [] [] _ _ starts
      (Nat.lt_add_of_pos_right (by decide : 0 < 2))
  obtain ⟨fuel, rfl⟩ := Nat.exists_eq_add_of_lt enough
  have ran := same.trans (Spot.run_of_end at_)
  rw [tokensOf, if_pos readable, isText]
  refine (congrArg (· >>= fun tokens => pure tokens.reverse) ran).trans ?_
  refine congrArg Except.ok ?_
  simp [Node.tokens]

end TrainingCollar.Yaml.Node
