import TrainingCollar.Proofs.Failure
import TrainingCollar.Yaml.Content

/-! # What reading a document fails with

A text may be no document, and then it is malformed. Apart from that only scalars fail: for a character
code or a number that is out of range, a date that does not exist, or a word that does not suit its
tag. So reading never comes to a violation, nor to a fault of the file system: `failsOnly_readDocument`.
-/

namespace TrainingCollar

/-- A fault of a text that is read as a document. -/
def Fault.IsReading : Fault → Prop
  | .malformed | .tooLarge | .badValue | .badIndex _ | .noKey | .noPart | .wrongKind => True
  | _ => False

namespace Yaml

/-- Whatever a reader fails with is a fault of the text. -/
abbrev Reads {α : Type} (x : Except Fault α) : Prop := FailsOnly Fault.IsReading x

variable {α : Type}

theorem malformed : Reads (.error .malformed : Except Fault α) := .error trivial

/-! ## Scalars -/

theorem reads_integerIn (base : Nat) (s : List Char) : Reads (integerIn base s) := by
  refine .ite (.error trivial) ?_
  split
  · exact .ok _
  · exact .error trivial

theorem reads_readEach {read : List Char → Except Fault α} (reads : ∀ s, Reads (read s))
    (texts : List (List Char)) : Reads (readEach read texts) := by
  induction texts with
  | nil => exact .ok _
  | cons s rest ih => exact .bind (reads s) fun _ _ => .bind ih fun _ _ => .pure _

theorem reads_readInteger (s : List Char) : Reads (readInteger s) := by
  apply FailsOnly.map
  split
  · exact .error trivial
  · exact .ok _
  · exact reads_integerIn ..
  · exact reads_integerIn ..
  · exact reads_integerIn ..
  · exact .ite (.map (reads_readEach (reads_integerIn 10) _)) (reads_integerIn ..)

theorem reads_decimalOf (s : List Char) : Reads (decimalOf s) := by
  refine .ite (.ok _) (.ite (.ok _) (.ite (.error trivial) ?_))
  split
  · exact .ok _
  · exact .error trivial

-- The equations of the recursion are not unfolded on demand: that would evaluate the factor.
private theorem addSixties_nil (sum : Binary64) (weight : Nat) :
    addSixties sum weight [] = .ok sum := by
  delta addSixties
  rfl

private theorem addSixties_cons (sum : Binary64) (weight : Nat) (x : Binary64)
    (rest : List Binary64) : addSixties sum weight (x :: rest) =
      match Binary64.ofInt? weight with
      | some factor => addSixties (sum.add (x.multiply factor)) (weight * 60) rest
      | none => .error .tooLarge := by
  delta addSixties
  rfl

theorem reads_addSixties (sum : Binary64) (weight : Nat) (places : List Binary64) :
    Reads (addSixties sum weight places) := by
  induction places generalizing sum weight with
  | nil =>
    rw [addSixties_nil]
    exact .ok sum
  | cons x rest ih =>
    rw [addSixties_cons]
    split
    · exact ih ..
    · exact .error trivial

theorem reads_readFloat (s : List Char) : Reads (readFloat s) := by
  have sixties (texts : List (List Char)) : Reads (do
      let places ← readEach decimalOf texts
      addSixties (.zero false) 1 places.reverse) :=
    .bind (reads_readEach reads_decimalOf texts) fun _ _ => reads_addSixties ..
  exact .map (.ite (.error trivial) (.ite (.ok _) (.ite (.ok _)
    (.ite (sixties _) (reads_decimalOf _)))))

theorem reads_readBool (s : List Char) : Reads (readBool s) := by
  unfold readBool
  split
  · exact .ok _
  · exact .error trivial

theorem reads_readTimestamp (s : List Char) : Reads (readTimestamp s) := by
  unfold readTimestamp
  split
  · exact .error trivial
  · dsimp only
    split
    · exact .ite (.ok _) (.error trivial)
    · exact .ite (.ok _) (.error trivial)

theorem reads_readBinary (s : List Char) : Reads (readBinary s) := by
  refine .ite ?_ malformed
  split
  · exact .ok _
  · exact malformed

theorem reads_readScalar (tag : Tag) (s : List Char) : Reads (readScalar tag s) := by
  unfold readScalar
  split
  · exact .ok _
  · exact .map (reads_readBool s)
  · exact .map (reads_readInteger s)
  · exact .map (reads_readFloat s)
  · exact .ok _
  · exact .map (reads_readBinary s)
  · exact reads_readTimestamp s
  · exact malformed

/-! ## Quoted and block scalars -/

theorem reads_endLine (c : Cursor) : Reads c.endLine := by
  unfold Cursor.endLine
  extract_lets c c
  split
  · exact .ok _
  · exact .ok _
  · exact malformed

theorem reads_charOf (code : Nat) : Reads (charOf code) :=
  .ite (.error trivial) (.ite (.error trivial) (.ite (.ok _) (.ok _)))

theorem reads_quotedBreaks (fuel : Nat) (c : Cursor) : Reads (quotedBreaks fuel c) := by
  induction fuel generalizing c with
  | zero => exact .ok _
  | succ fuel ih =>
    refine .ite malformed ?_
    dsimp only
    split
    · exact .ok _
    · exact .bind (ih _) fun _ _ => .pure _

theorem reads_readEscape (c : Cursor) : Reads (readEscape c) := by
  unfold readEscape
  split
  · exact malformed
  · split
    · exact .ok _
    · exact .ite (.bind (reads_charOf _) fun _ _ => .pure _) malformed
    · split
      · exact reads_quotedBreaks ..
      · exact malformed

theorem reads_quotedPiece (double : Bool) (fuel : Nat) (c : Cursor) :
    Reads (quotedPiece double fuel c) := by
  induction fuel generalizing c with
  | zero => exact .ok _
  | succ fuel ih =>
    unfold quotedPiece
    split
    · exact .ok _
    · refine .ite (.ok _) (.ite ?_ (.ite (.ok _) (.ite ?_ ?_)))
      · exact .bind (ih _) fun _ _ => .pure _
      · exact .bind (reads_readEscape _) fun _ _ => .bind (ih _) fun _ _ => .pure _
      · exact .bind (ih _) fun _ _ => .pure _

theorem reads_quotedGap (c : Cursor) : Reads (quotedGap c) := by
  unfold quotedGap
  extract_lets isSpace spaces c
  split
  · exact malformed
  · exact .ok _
  · exact .bind (reads_quotedBreaks ..) fun _ _ => .pure _

theorem reads_quotedRest (double : Bool) (fuel : Nat) (c : Cursor) :
    Reads (quotedRest double fuel c) := by
  induction fuel generalizing c with
  | zero => exact malformed
  | succ fuel ih =>
    refine .bind (reads_quotedPiece ..) fun piece _ => .ite (.pure _) ?_
    exact .bind (reads_quotedGap _) fun _ _ => .bind (ih _) fun _ _ => .pure _

theorem reads_readQuoted (double : Bool) (c : Cursor) : Reads (readQuoted double c) :=
  reads_quotedRest ..

theorem reads_readIncrement (c : Char) : Reads (readIncrement c) := .ite malformed (.ok _)

theorem reads_readBlockHeader (c : Cursor) : Reads (readBlockHeader c) := by
  have digit (ch : Char) (chomping : Chomping) (c : Cursor) : Reads (do
      return (chomping, ← readIncrement ch, c)) := .bind (reads_readIncrement ch) fun _ _ => .pure _
  refine .bind ?_ fun header _ => .ite (.bind (reads_endLine _) fun _ _ => .pure _) malformed
  split
  · exact .ite (digit ..) (.ite (digit ..) (.ite (.pure _) (.ite (digit ..) (.pure _))))
  · exact .ite (.pure _) (.ite (digit ..) (.pure _))
  · exact .pure _

theorem reads_readBlock (folded : Bool) (parent : Int) (c : Cursor) :
    Reads (readBlock folded parent c) := by
  refine .bind (reads_readBlockHeader _) fun header _ => ?_
  obtain ⟨chomping, increment, c⟩ := header
  cases increment with
  | none => exact .ite (.pure _) (.pure _)
  | some increment => exact .ite (.pure _) (.pure _)

/-! ## Names, tags and directives -/

theorem reads_readName (c : Cursor) : Reads (readName c) := .ite (.ok _) malformed

theorem reads_readHandle (c : Cursor) : Reads (readHandle c) := by
  refine .ite malformed ?_
  dsimp only
  exact .ite (.ok _) (.ite (.ok _) malformed)

theorem reads_readUri (c : Cursor) : Reads (readUri c) := by
  unfold readUri
  dsimp only
  split
  · split
    · exact .ite malformed (.ok _)
    · exact malformed
  · exact malformed

theorem reads_readTag (c : Cursor) : Reads (readTag c) := by
  refine .bind (.ite ?_ (.ite (.pure _) (.ite ?_ ?_))) fun tag _ => .ite (.pure _) malformed
  · exact .bind (reads_readUri _) fun uri _ => .ite (.pure _) malformed
  · exact .bind (reads_readHandle _) fun _ _ => .bind (reads_readUri _) fun _ _ => .pure _
  · exact .bind (.ok _) fun _ _ => .bind (reads_readUri _) fun _ _ => .pure _

theorem reads_readVersionNumber (c : Cursor) : Reads (readVersionNumber c) := .ite malformed (.ok _)

theorem reads_readDirective (c : Cursor) : Reads (readDirective c) := by
  have ended {directive : Directive} (c : Cursor) : Reads (do return (directive, ← c.endLine)) :=
    .bind (reads_endLine c) fun _ _ => .pure _
  refine .ite malformed (.ite ?_ (.ite ?_ (ended _)))
  · refine .bind (reads_readVersionNumber _) fun major _ => .ite ?_ malformed
    exact .bind (reads_readVersionNumber _) fun minor _ => .ite (ended _) malformed
  · refine .bind (reads_readHandle _) fun handle _ => .ite ?_ malformed
    exact .bind (reads_readUri _) fun uri _ => .ite (ended _) malformed

/-! ## Tokens -/

namespace Lexer

theorem reads_forgetKey (l : Lexer) : Reads l.forgetKey := .ite malformed (.ok _)

theorem reads_rememberKey (l : Lexer) : Reads l.rememberKey :=
  .ite (.bind (reads_forgetKey l) fun _ _ => .pure _) (.pure _)

theorem reads_dropStale (l : Lexer) : Reads l.dropStale := .ite malformed (.ok _)

theorem reads_atTop (l : Lexer) : Reads l.atTop := .bind (reads_forgetKey _) fun _ _ => .pure _

theorem reads_openBracket (l : Lexer) (token : Token) : Reads (l.openBracket token) :=
  .bind (reads_rememberKey l) fun _ _ => .pure _

theorem reads_closeBracket (l : Lexer) (token : Token) : Reads (l.closeBracket token) :=
  .bind (reads_forgetKey l) fun _ _ => .ite malformed (.pure _)

theorem reads_comma (l : Lexer) : Reads l.comma := .bind (reads_forgetKey _) fun _ _ => .pure _

theorem reads_item (l : Lexer) : Reads l.item :=
  .ite malformed (.bind (reads_forgetKey _) fun _ _ => .pure _)

theorem reads_explicitKey (l : Lexer) : Reads l.explicitKey :=
  .ite malformed (.bind (reads_forgetKey _) fun _ _ => .pure _)

theorem reads_value (l : Lexer) : Reads l.value := by
  unfold value
  split
  · exact .ok _
  · exact .ite malformed (.bind (reads_forgetKey _) fun _ _ => .pure _)

theorem reads_keyPart (l : Lexer) {read : Cursor → Except Fault (Token × Cursor)}
    (reads : ∀ c, Reads (read c)) : Reads (l.keyPart read) :=
  .bind (reads_rememberKey l) fun _ _ => .bind (reads _) fun _ _ => .pure _

theorem reads_plain (l : Lexer) : Reads l.plain := .bind (reads_rememberKey l) fun _ _ => .pure _

theorem reads_block (l : Lexer) (folded : Bool) : Reads (l.block folded) :=
  .bind (reads_forgetKey _) fun _ _ => .bind (reads_readBlock ..) fun _ _ => .pure _

theorem reads_token (l : Lexer) (ch : Char) : Reads (l.token ch) := by
  have mark (token : Token) (c : Cursor) : Reads (do return ((← l.atTop).emit token).moveTo c) :=
    .bind (reads_atTop l) fun _ _ => .pure _
  -- In the order of the conditions on the character.
  refine
    .ite ?directive <|
    .ite (mark ..) <|
    .ite (mark ..) <|
    .ite (reads_openBracket ..) <|
    .ite (reads_openBracket ..) <|
    .ite (reads_closeBracket ..) <|
    .ite (reads_closeBracket ..) <|
    .ite (reads_comma l) <|
    .ite (reads_item l) <|
    .ite (reads_explicitKey l) <|
    .ite (reads_value l) <|
    .ite ?reference <|
    .ite ?anchor <|
    .ite ?tag <|
    .ite (reads_block ..) <|
    .ite (reads_block ..) <|
    .ite ?quoted <|
    .ite (reads_plain l) malformed
  case directive =>
    exact .bind (reads_atTop l) fun _ _ => .bind (reads_readDirective _) fun _ _ => .pure _
  case reference => exact reads_keyPart l fun c => .bind (reads_readName c) fun _ _ => .pure _
  case anchor => exact reads_keyPart l fun c => .bind (reads_readName c) fun _ _ => .pure _
  case tag => exact reads_keyPart l fun c => .bind (reads_readTag c) fun _ _ => .pure _
  case quoted => exact reads_keyPart l fun c => .bind (reads_readQuoted ..) fun _ _ => .pure _

theorem reads_settle (l : Lexer) : Reads l.settle := .bind (reads_dropStale _) fun _ _ => .pure _

theorem reads_run (fuel : Nat) (l : Lexer) : Reads (run fuel l) := by
  induction fuel generalizing l with
  | zero => exact malformed
  | succ fuel ih =>
    refine .bind (reads_settle l) fun l _ => ?_
    split
    · exact .bind (reads_token ..) fun l _ => ih l
    · exact .bind (reads_forgetKey _) fun _ _ => .pure _

end Lexer

theorem reads_tokensOf (text : List Char) : Reads (tokensOf text) :=
  .ite (.bind (Lexer.reads_run ..) fun _ _ => .pure _) malformed

/-! ## Nodes -/

namespace Node

variable {handles : List (String × String)}

theorem reads_resolveTag (handle : Option String) (suffix : String) :
    Reads (resolveTag handles handle suffix) := by
  unfold resolveTag
  split
  · exact .ok _
  · split
    · exact .ok _
    · exact malformed

theorem reads_readProperties (tokens : List Token) : Reads (readProperties handles tokens) := by
  unfold readProperties
  split
  · exact .bind (reads_resolveTag ..) fun _ _ => .pure _
  · exact .bind (reads_resolveTag ..) fun _ _ => .pure _
  · exact .pure _
  · exact .bind (reads_resolveTag ..) fun _ _ => .pure _
  · exact .pure _

/-- With some fuel, nothing but faults of the text comes of reading nodes and what they consist of.
The functions call each other with less fuel, so that one induction serves all of them. -/
structure ReadsAt (handles : List (String × String)) (fuel : Nat) : Prop where
  node : ∀ place tokens, Reads (read handles fuel place tokens)
  orEmpty : ∀ place stops tokens, Reads (readUnless handles fuel place stops tokens)
  items : ∀ tokens, Reads (readItems handles fuel tokens)
  openItems : ∀ tokens, Reads (readOpenItems handles fuel tokens)
  pairs : ∀ tokens, Reads (readPairs handles fuel tokens)
  value : ∀ place stops tokens, Reads (readValue handles fuel place stops tokens)
  flowItems : ∀ first tokens, Reads (readFlowItems handles fuel first tokens)
  flowPairs : ∀ first tokens, Reads (readFlowPairs handles fuel first tokens)

theorem readsAt_zero : ReadsAt handles 0 := by
  constructor
  case node | orEmpty | flowItems | flowPairs =>
    intros
    first | unfold read | unfold readUnless | unfold readFlowItems | unfold readFlowPairs
    exact malformed
  case items =>
    intro tokens
    unfold readItems
    split <;> first | exact .ok _ | exact malformed | contradiction
  case openItems =>
    intro tokens
    unfold readOpenItems
    split <;> first | exact .ok _ | exact malformed | contradiction
  case pairs =>
    intro tokens
    unfold readPairs
    split <;> first | exact .ok _ | exact malformed | contradiction
  case value =>
    intro place stops tokens
    unfold readValue
    split <;> first | exact .ok _ | exact malformed | contradiction

/-- Between brackets a comma stands before everything but the first. -/
theorem reads_afterComma {first : Bool} {tokens : List Token} {next : List Token → Except Fault α}
    (goesOn : ∀ tokens, Reads (next tokens)) :
    Reads (if first = true then .ok tokens >>= next
      else if startsWith [.comma] tokens = true then .ok tokens.tail >>= next
      else .error .malformed >>= next) :=
  .ite (.bind (.ok _) fun _ _ => goesOn _) (.ite (.bind (.ok _) fun _ _ => goesOn _)
    (.bind malformed fun _ _ => goesOn _))

namespace ReadsAt

variable {fuel : Nat} (before : ReadsAt handles fuel)
include before

theorem node_succ (place : Place) (tokens : List Token) :
    Reads (read handles (fuel + 1) place tokens) := by
  unfold read
  split
  · contradiction
  · exact .ok _
  · next same _ =>
    cases same
    refine .bind (reads_readProperties _) fun properties _ => ?_
    have empty (tokens : List Token) : Reads (if properties.1.anchor.isSome || properties.1.tag.isSome
        then pure (Node.scalar properties.1.anchor (scalarTag properties.1.tag true []) [], tokens)
        else .error .malformed : Except Fault (Node × List Token)) := .ite (.pure _) malformed
    dsimp only
    split
    · exact .pure _
    · exact .bind (before.flowItems ..) fun _ _ => .pure _
    · exact .bind (before.flowPairs ..) fun _ _ => .pure _
    · exact .ite malformed (.bind (before.items _) fun _ _ => .pure _)
    · exact .ite malformed (.bind (before.pairs _) fun _ _ => .pure _)
    · exact .ite (.bind (before.openItems _) fun _ _ => .pure _) (empty _)
    · exact empty _

theorem orEmpty_succ (place : Place) (stops tokens : List Token) :
    Reads (readUnless handles (fuel + 1) place stops tokens) := by
  unfold readUnless
  exact .ite (.ok _) (before.node ..)

theorem items_succ (tokens : List Token) : Reads (readItems handles (fuel + 1) tokens) := by
  unfold readItems
  split
  · next same =>
    cases same
    exact .bind (before.orEmpty ..) fun _ _ => .bind (before.items _) fun _ _ => .pure _
  · exact .ok _
  · exact malformed

theorem openItems_succ (tokens : List Token) :
    Reads (readOpenItems handles (fuel + 1) tokens) := by
  unfold readOpenItems
  split
  · next same =>
    cases same
    exact .bind (before.orEmpty ..) fun _ _ => .bind (before.openItems _) fun _ _ => .pure _
  · exact malformed
  · exact .ok _

theorem pairs_succ (tokens : List Token) : Reads (readPairs handles (fuel + 1) tokens) := by
  unfold readPairs
  split
  · next same =>
    cases same
    exact .bind (before.orEmpty ..) fun _ _ => .bind (before.value ..) fun _ _ =>
      .bind (before.pairs _) fun _ _ => .pure _
  · exact .ok _
  · exact malformed

theorem value_succ (place : Place) (stops tokens : List Token) :
    Reads (readValue handles (fuel + 1) place stops tokens) := by
  unfold readValue
  split
  · next same =>
    cases same
    exact before.orEmpty ..
  · exact malformed
  · exact .ok _

theorem flowItems_succ (first : Bool) (tokens : List Token) :
    Reads (readFlowItems handles (fuel + 1) first tokens) := by
  unfold readFlowItems
  refine .ite (.ok _) (reads_afterComma fun tokens => ?_)
  dsimp only
  split
  · exact .pure _
  · exact .bind (before.orEmpty ..) fun _ _ => .bind (before.value ..) fun _ _ =>
      .bind (before.flowItems ..) fun _ _ => .pure _
  · exact .bind (before.node ..) fun _ _ => .bind (before.flowItems ..) fun _ _ => .pure _

theorem flowPairs_succ (first : Bool) (tokens : List Token) :
    Reads (readFlowPairs handles (fuel + 1) first tokens) := by
  unfold readFlowPairs
  refine .ite (.ok _) (reads_afterComma fun tokens => ?_)
  dsimp only
  split
  · exact .pure _
  · exact .bind (before.orEmpty ..) fun _ _ => .bind (before.value ..) fun _ _ =>
      .bind (before.flowPairs ..) fun _ _ => .pure _
  · exact .bind (before.node ..) fun _ _ => .bind (before.flowPairs ..) fun _ _ => .pure _

theorem succ : ReadsAt handles (fuel + 1) where
  node := before.node_succ
  orEmpty := before.orEmpty_succ
  items := before.items_succ
  openItems := before.openItems_succ
  pairs := before.pairs_succ
  value := before.value_succ
  flowItems := before.flowItems_succ
  flowPairs := before.flowPairs_succ

end ReadsAt

theorem readsAt (fuel : Nat) : ReadsAt handles fuel := by
  induction fuel with
  | zero => exact readsAt_zero
  | succ fuel ih => exact ih.succ

theorem reads_read (fuel : Nat) (place : Place) (tokens : List Token) :
    Reads (read handles fuel place tokens) := (readsAt fuel).node place tokens

end Node

theorem reads_handlesOf (version : Bool) (handles : List (String × String)) (tokens : List Token) :
    Reads (handlesOf version handles tokens) := by
  induction tokens generalizing version handles with
  | nil => exact .ok _
  | cons token rest ih =>
    unfold handlesOf
    split
    · next same =>
      cases same
      split
      · exact .ite malformed (ih ..)
      · exact .ite malformed (ih ..)
      · exact ih ..
    · exact .ok _

theorem reads_endDocument (tokens : List Token) : Reads (endDocument tokens) := by
  unfold endDocument
  split
  · exact .ok _
  · exact malformed

theorem reads_readContent (handles : List (String × String)) (fuel : Nat) (tokens : List Token) :
    Reads (readContent handles fuel tokens) := by
  unfold readContent
  split
  · exact .ok _
  · exact .ok _
  · exact .ok _
  · exact .ok _
  · exact Node.reads_read ..

theorem reads_documentOfTokens (tokens : List Token) : Reads (documentOfTokens tokens) := by
  unfold documentOfTokens
  extract_lets fuel
  split
  case h_1 => exact .ok _
  case h_2 | h_3 =>
    refine .bind (reads_handlesOf ..) fun marked _ => ?_
    dsimp only
    split
    · exact .bind (reads_readContent ..) fun _ _ => .bind (reads_endDocument _) fun _ _ => .pure _
    · exact malformed
  case h_4 =>
    exact .bind (Node.reads_read ..) fun _ _ => .bind (reads_endDocument _) fun _ _ => .pure _

theorem reads_documentOf (text : List Char) : Reads (documentOf text) :=
  .bind (reads_tokensOf text) fun tokens _ => reads_documentOfTokens tokens

/-! ## Contents -/

namespace Node

mutual

theorem reads_expand (known : Known) (around : List String) :
    (node : Node) → Reads (expand known around node)
  | .alias name => by
    unfold expand
    split
    · exact .ok _
    · exact .ite (.ok _) malformed
  | .scalar .. => .ite (.ok _) malformed
  | .sequence _ _ items =>
    .ite (.bind (reads_expandAll known _ items) fun _ _ => .pure _) malformed
  | .mapping _ _ pairs =>
    .ite (.bind (reads_expandPairs known _ pairs) fun _ _ => .pure _) malformed

theorem reads_expandAll (known : Known) (around : List String) :
    (items : List Node) → Reads (expandAll known around items)
  | [] => .ok _
  | item :: rest =>
    .bind (reads_expand known around item) fun first _ =>
      .bind (reads_expandAll first.2 around rest) fun _ _ => .pure _

theorem reads_expandPairs (known : Known) (around : List String) :
    (pairs : List (Node × Node)) → Reads (expandPairs known around pairs)
  | [] => .ok _
  | (key, value) :: rest =>
    .bind (reads_expand known around key) fun first _ =>
      .bind (reads_expand first.2 around value) fun second _ =>
        .bind (reads_expandPairs second.2 around rest) fun _ _ => .pure _

end

theorem reads_readText (tag : Tag) (text : Option (List Char)) : Reads (readText tag text) := by
  unfold readText
  split
  · exact .error trivial
  · exact reads_readScalar ..
  · exact malformed

theorem reads_readKey (node : Node) : Reads (readKey node) := by
  unfold readKey
  split
  · exact reads_readScalar ..
  · exact .ite malformed (reads_readText ..)
  · exact malformed

/-- Faults of the text, each at its level. -/
def AllReading (list : List Found) : Prop := ∀ entry ∈ list, entry.2.IsReading

theorem allReading_nil : AllReading [] := nofun

theorem AllReading.append {first second : List Found} (left : AllReading first)
    (right : AllReading second) : AllReading (first ++ second) :=
  List.forall_mem_append.mpr ⟨left, right⟩

theorem allReading_malformedAt (level : Nat) : AllReading (malformedAt level) :=
  List.forall_mem_singleton.mpr trivial

theorem allReading_found {α : Type} {x : Except Fault α} (reads : Reads x) (level : Nat) :
    AllReading (found level x) := by
  cases x with
  | ok a => exact allReading_nil
  | error fault => exact List.forall_mem_singleton.mpr (reads.allows fault rfl)

mutual

theorem allReading_faults (level : Nat) : (node : Node) → AllReading (faults level node)
  | .alias _ => allReading_nil
  | .scalar _ tag text => by
    unfold faults
    split
    · exact allReading_malformedAt _
    · exact allReading_found (reads_readScalar tag text) level
  | .sequence _ tag items => by
    unfold faults
    split
    · exact allReading_faultsOfItems _ items
    · exact allReading_faultsOfTuples _ items
    · exact allReading_faultsOfTuples _ items
    · exact allReading_malformedAt _
    · exact allReading_malformedAt _
    · exact allReading_malformedAt _
  | .mapping _ tag pairs => by
    unfold faults
    split
    · exact allReading_faultsOfPairs _ pairs
    · exact allReading_faultsOfPairs _ pairs
    · exact allReading_malformedAt _
    · exact allReading_malformedAt _
    · exact allReading_malformedAt _
    · exact allReading_found (reads_readText _ _) level

theorem allReading_faultsOfItems (level : Nat) :
    (items : List Node) → AllReading (faultsOfItems level items)
  | [] => allReading_nil
  | item :: rest => (allReading_faults level item).append (allReading_faultsOfItems level rest)

theorem allReading_faultsOfTuples (level : Nat) :
    (items : List Node) → AllReading (faultsOfTuples level items)
  | [] => allReading_nil
  | .mapping _ _ [(key, value)] :: rest =>
    (allReading_faults level key).append
      ((allReading_faults level value).append (allReading_faultsOfTuples level rest))
  | .mapping _ _ [] :: _ | .mapping _ _ (_ :: _ :: _) :: _ | .alias _ :: _ | .scalar .. :: _
  | .sequence .. :: _ => allReading_malformedAt level

theorem allReading_faultsOfPairs (level : Nat) :
    (pairs : List (Node × Node)) → AllReading (faultsOfPairs level pairs)
  | [] => allReading_nil
  | (key, value) :: rest =>
    (allReading_found (reads_readKey key) level).append
      ((allReading_faults level value).append (allReading_faultsOfPairs level rest))

end

/-- The fault that counts is one of those that were found. -/
theorem mem_of_firstFault? {list : List Found} {first : Found} (same : firstFault? list = some first) :
    first ∈ list := by
  induction list generalizing first with
  | nil => cases same
  | cons head rest ih =>
    unfold firstFault? at same
    split at same
    · next other isOther =>
      split at same
      · cases same
        exact List.mem_cons_of_mem _ (ih isOther)
      · cases same
        exact List.mem_cons_self
    · cases same
      exact List.mem_cons_self

theorem reads_mapOf (pairs : List (Value × Value)) : Reads (mapOf pairs) := by
  unfold mapOf
  split
  · exact .ok _
  · exact malformed

mutual

theorem reads_build (around : Around) : (node : Node) → Reads (build around node)
  | .alias _ => .ok _
  | .scalar _ tag text => reads_readScalar tag text
  | .sequence _ tag items => by
    unfold build
    split
    · exact .map (reads_buildItems _ items)
    · exact .map (reads_buildTuples _ items)
    · exact .map (reads_buildTuples _ items)
    · exact malformed
  | .mapping _ tag pairs => by
    unfold build
    split
    · exact .bind (reads_buildPairs _ pairs) fun _ _ => .bind (reads_mapOf _) fun _ _ => .pure _
    · exact .bind (reads_buildPairs _ pairs) fun _ _ => .bind (reads_mapOf _) fun _ _ => .pure _
    · exact reads_readText _ _

theorem reads_buildItems (around : Around) : (items : List Node) → Reads (buildItems around items)
  | [] => .ok _
  | item :: rest =>
    .bind (reads_build around item) fun _ _ => .bind (reads_buildItems around rest) fun _ _ => .pure _

theorem reads_buildTuples (around : Around) : (items : List Node) → Reads (buildTuples around items)
  | [] => .ok _
  | .mapping _ _ [(key, value)] :: rest =>
    .bind (reads_build around key) fun _ _ => .bind (reads_build around value) fun _ _ =>
      .bind (reads_buildTuples around rest) fun _ _ => .pure _
  | .mapping _ _ [] :: _ | .mapping _ _ (_ :: _ :: _) :: _ | .alias _ :: _ | .scalar .. :: _
  | .sequence .. :: _ => malformed

theorem reads_buildPairs (around : Around) :
    (pairs : List (Node × Node)) → Reads (buildPairs around pairs)
  | [] => .ok _
  | (key, value) :: rest =>
    .bind (reads_readKey key) fun _ _ => .bind (reads_build around value) fun _ _ =>
      .bind (reads_buildPairs around rest) fun _ _ => .pure _

end

theorem reads_content (root : Node) : Reads root.content := by
  refine .bind (reads_expand [] [] root) fun expanded _ => ?_
  dsimp only
  split
  · next first isFirst => exact .error (allReading_faults 0 _ _ (mem_of_firstFault? isFirst))
  · exact reads_build ..

end Node

/-- A text is read as a document, or it fails with a fault of the text. -/
theorem failsOnly_readDocument (text : List Char) : Reads (readDocument text) := by
  refine .bind (reads_documentOf text) fun root _ => ?_
  cases root with
  | none => exact .pure _
  | some root => exact Node.reads_content root

end Yaml

end TrainingCollar
