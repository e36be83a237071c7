import Mathlib.Data.List.Forall2
import ScriptKinds.Grammar.Table
import ScriptKinds.Numeric.Literal
import ScriptKinds.Syntax.Tree

/-!
Printing of expressions.

A printed expression is a list of signs, each of which says what a token at its
place has to be.  Operands are put in parentheses unless they are leaves.
-/

namespace ScriptKinds

/-- What a token has to be. -/
inductive Sign where
  /-- A token whose kind says it all. -/
  | mark (kind : TokenKind)
  | word (kind : TokenKind) (text : String)
  /-- A number with any of its spellings. -/
  | number (value : Binary64)
  /-- The key of a property, as a word, a string or a number. -/
  | key (name : String)

namespace Sign

/-- Whether a token can stand for a sign. -/
def Admits : Sign → Token → Prop
  | mark kind, token => token.kind = kind
  | word kind text, token => token.kind = kind ∧ token.text = text
  | number value, token => token.kind = .number ∧ Literal.value? token.text = some value
  | key name, token => token.kind ∈ [.ofWord name, .string, .number] ∧ token.text = name

/-- Whether a token is what a sign says, on the same line as the token before
it. -/
def Fits (sign : Sign) (token : Token) : Prop :=
  token.newlineBefore = false ∧ sign.Admits token

end Sign

/-- Whether some tokens are a way to write some signs. -/
def Writes (signs : List Sign) (tokens : List Token) : Prop :=
  List.Forall₂ Sign.Fits signs tokens

/-- The sign that only tokens of the same kind and text fit. -/
def Token.sign (token : Token) : Sign :=
  .word token.kind token.text

/-- Printed items with commas between them. -/
def commas : List (List Sign) → List Sign
  | [] => []
  | [item] => item
  | item :: next :: others => item ++ .mark .comma :: commas (next :: others)

/-- Printed substitutions of a template, each with the text behind it. -/
def templateSigns : List (List Sign) → List String → List Sign
  | [item], [text] => item ++ [.word .templateTail text]
  | item :: others, text :: texts =>
      item ++ .word .templateMiddle text :: templateSigns others texts
  | _, _ => []

namespace Expr

/-- Whether an expression stands as an operand without parentheses.  Spread
expressions do so in lists, and they stand nowhere else. -/
def standsBare : Expr → Bool
  | number .. | string .. | boolean .. | null .. | symbol .. | regex .. | spread .. => true
  | _ => false

/-- An expression as an operand, given how it is printed. -/
def enclose (expr : Expr) (printed : List Sign) : List Sign :=
  if expr.standsBare then printed else .mark .openParen :: (printed ++ [.mark .closeParen])

/-- What is listed as an item: the item itself or what it spreads. -/
def unspread : Expr → Expr
  | spread argument _ => argument
  | item => item

def isSpread : Expr → Bool
  | spread .. => true
  | _ => false

end Expr

mutual

/-- The signs that spell an expression. -/
def Expr.print : Expr → List Sign
  | .number value _ => [.number value]
  | .string value template _ => [.word (if template then .template else .string) value]
  | .boolean value _ => [.mark (if value then .trueWord else .falseWord)]
  | .null _ => [.mark .nullWord]
  | .symbol name _ => [.word .identifier name.name]
  | .regex pattern flags _ => [.word .regex ("/" ++ pattern ++ "/" ++ flags)]
  | .array elements _ =>
      .mark .openBracket :: (commas (printEach elements) ++ [.mark .closeBracket])
  | .object properties _ =>
      .mark .openCurly :: (commas (printProperties properties) ++ [.mark .closeCurly])
  | .binary operator left right _ =>
      left.enclose left.print ++ operator.sign :: right.enclose right.print
  | .unary operator operand _ => operator.sign :: operand.enclose operand.print
  | .update operator operand true _ => operator.sign :: operand.enclose operand.print
  | .update operator operand false _ => operand.enclose operand.print ++ [operator.sign]
  | .assignment operator target value _ =>
      target.enclose target.print ++ operator.sign :: value.enclose value.print
  | .call callee arguments _ =>
      callee.enclose callee.print ++
        .mark .openParen :: (commas (printEach arguments) ++ [.mark .closeParen])
  | .member object name _ =>
      object.enclose object.print ++ [.mark .dot, .word (.ofWord name) name]
  | .index object index _ =>
      object.enclose object.print ++
        .mark .openBracket :: (index.enclose index.print ++ [.mark .closeBracket])
  | .new callee arguments _ =>
      .mark .newWord :: (callee.enclose callee.print ++
        .mark .openParen :: (commas (printEach arguments) ++ [.mark .closeParen]))
  | .conditional test consequent alternate _ =>
      test.enclose test.print ++ .mark .question :: (consequent.enclose consequent.print ++
        .mark .colon :: alternate.enclose alternate.print)
  | .template texts substitutions _ =>
      .word .templateHead (texts.headD "") :: templateSigns (printEach substitutions) texts.tail
  | .sequence operands _ => commas (printEach operands)
  | .spread argument _ => .mark .ellipsis :: argument.enclose argument.print
  | .function _ _ _ _ _ | .classDef _ _ _ _ => []

def printEach : List Expr → List (List Sign)
  | [] => []
  | expr :: others => expr.enclose expr.print :: printEach others

def printProperties : List Property → List (List Sign)
  | [] => []
  | ⟨key, value⟩ :: others =>
      (if value.isSpread then value.print
        else .key key :: .mark .colon :: value.enclose value.print) :: printProperties others

end

/-- The signs that spell an expression as an operand of another one. -/
def Expr.printOperand (expr : Expr) : List Sign :=
  expr.enclose expr.print

/-- The signs that spell a property. -/
def Property.print (property : Property) : List Sign :=
  if property.value.isSpread then property.value.print
  else .key property.key :: .mark .colon :: property.value.printOperand

/-- The operators in front of one operand. -/
def prefixOperators : List TokenKind :=
  [.dash, .plus, .not, .tilde, .typeofWord, .voidWord, .deleteWord]

/-- The operators that change their operand. -/
def updateOperators : List TokenKind :=
  [.plusPlus, .minusMinus]

def assignmentOperators : List TokenKind :=
  [.assignment, .plusEquals, .minusEquals, .starEquals, .slashEquals, .percentEquals,
    .starStarEquals, .ampersandEquals, .pipeEquals, .caretEquals, .shiftLeftEquals,
    .shiftRightEquals, .unsignedShiftRightEquals]

def binaryOperators : List TokenKind :=
  [.or, .and, .nullish, .pipe, .caret, .ampersand, .equals, .notEquals, .strictEquals,
    .strictNotEquals, .less, .lessEquals, .greater, .greaterEquals, .inWord, .instanceofWord,
    .shiftLeft, .shiftRight, .unsignedShiftRight, .plus, .dash, .star, .slash, .percent, .starStar]

/-- The expressions without functions and classes that have a text. -/
inductive Expr.Printable : Expr → Prop where
  | number {value : Binary64} {span : Span} (text : String)
      (h : Literal.value? text = some value) : Printable (.number value span)
  | string {value : String} {template : Bool} {span : Span} :
      Printable (.string value template span)
  | boolean {value : Bool} {span : Span} : Printable (.boolean value span)
  | null {span : Span} : Printable (.null span)
  | symbol {name : Identifier} {span : Span} : Printable (.symbol name span)
  | regex {pattern flags : String} {span : Span} (h : '/' ∉ flags.toList) :
      Printable (.regex pattern flags span)
  | array {elements : List Expr} {span : Span}
      (h : ∀ element ∈ elements, element.unspread.Printable) : Printable (.array elements span)
  /-- A property is given by its key or spreads its value. -/
  | object {properties : List Property} {span : Span}
      (h : ∀ property ∈ properties, property.value.unspread.Printable)
      (hkey : ∀ property ∈ properties, property.value.isSpread → property.key = "...") :
      Printable (.object properties span)
  | binary {operator : Token} {left right : Expr} {span : Span}
      (hoperator : operator.kind ∈ binaryOperators) (hleft : left.Printable)
      (hright : right.Printable) : Printable (.binary operator left right span)
  | unary {operator : Token} {operand : Expr} {span : Span}
      (hoperator : operator.kind ∈ prefixOperators) (hoperand : operand.Printable) :
      Printable (.unary operator operand span)
  | update {operator : Token} {operand : Expr} {leading : Bool} {span : Span}
      (hoperator : operator.kind ∈ updateOperators) (hassignable : operand.isAssignable)
      (hoperand : operand.Printable) : Printable (.update operator operand leading span)
  | assignment {operator : Token} {target value : Expr} {span : Span}
      (hoperator : operator.kind ∈ assignmentOperators) (hassignable : target.isAssignable)
      (htarget : target.Printable) (hvalue : value.Printable) :
      Printable (.assignment operator target value span)
  | call {callee : Expr} {arguments : List Expr} {span : Span} (hcallee : callee.Printable)
      (h : ∀ argument ∈ arguments, argument.unspread.Printable) :
      Printable (.call callee arguments span)
  | member {object : Expr} {name : String} {span : Span} (hobject : object.Printable) :
      Printable (.member object name span)
  | index {object index : Expr} {span : Span} (hobject : object.Printable)
      (hindex : index.Printable) : Printable (.index object index span)
  | new {callee : Expr} {arguments : List Expr} {span : Span} (hcallee : callee.Printable)
      (h : ∀ argument ∈ arguments, argument.unspread.Printable) :
      Printable (.new callee arguments span)
  | conditional {test consequent alternate : Expr} {span : Span} (htest : test.Printable)
      (hconsequent : consequent.Printable) (halternate : alternate.Printable) :
      Printable (.conditional test consequent alternate span)
  /-- A template starts with a text and has another one behind each of its
  substitutions. -/
  | template {text : String} {texts : List String} {substitutions : List Expr} {span : Span}
      (hsome : substitutions ≠ []) (hlength : texts.length = substitutions.length)
      (h : ∀ substitution ∈ substitutions, substitution.Printable) :
      Printable (.template (text :: texts) substitutions span)
  | sequence {operands : List Expr} {span : Span} (hlength : 2 ≤ operands.length)
      (h : ∀ operand ∈ operands, operand.Printable) : Printable (.sequence operands span)

section Printed

theorem printEach_eq (exprs : List Expr) : printEach exprs = exprs.map Expr.printOperand := by
  induction exprs with
  | nil => rfl
  | cons expr others ih => rw [printEach, ih, List.map_cons, Expr.printOperand]

theorem printProperties_eq (properties : List Property) :
    printProperties properties = properties.map Property.print := by
  induction properties with
  | nil => rfl
  | cons property others ih =>
      obtain ⟨key, value⟩ := property
      rw [printProperties, ih, List.map_cons, Property.print, Expr.printOperand]

theorem Expr.printOperand_of_not_bare {expr : Expr} (h : expr.standsBare = false) :
    expr.printOperand = .mark .openParen :: (expr.print ++ [.mark .closeParen]) := by
  rw [printOperand, enclose, h, if_neg Bool.false_ne_true]

theorem Expr.printOperand_of_bare {expr : Expr} (h : expr.standsBare = true) :
    expr.printOperand = expr.print := by
  rw [printOperand, enclose, h, if_pos rfl]

theorem Expr.standsBare_of_isSpread {expr : Expr} (h : expr.isSpread = true) :
    expr.standsBare = true := by
  cases expr <;> first | rfl | cases h

theorem Expr.unspread_of_not_spread {expr : Expr} (h : expr.isSpread = false) :
    expr.unspread = expr := by
  cases expr <;> first | rfl | cases h

theorem Expr.printable_or_spread {item : Expr} (h : item.unspread.Printable) :
    item.Printable ∨ ∃ argument span, item = .spread argument span ∧ argument.Printable := by
  cases hspread : item.isSpread with
  | false => exact .inl (item.unspread_of_not_spread hspread ▸ h)
  | true =>
      cases item <;> cases hspread
      exact .inr ⟨_, _, rfl, h⟩

end Printed

section Tokens

theorem writes_append {signs others : List Sign} {tokens : List Token} :
    Writes (signs ++ others) tokens ↔
      ∃ first rest, tokens = first ++ rest ∧ Writes signs first ∧ Writes others rest := by
  constructor
  · intro h
    exact ⟨tokens.take signs.length, tokens.drop signs.length,
      (List.take_append_drop _ _).symm, by
        simpa [Writes] using List.forall₂_take signs.length h, by
        simpa [Writes] using List.forall₂_drop signs.length h⟩
  · rintro ⟨first, rest, rfl, hfirst, hrest⟩
    exact List.rel_append hfirst hrest

theorem writes_cons {sign : Sign} {signs : List Sign} {tokens : List Token} :
    Writes (sign :: signs) tokens ↔
      ∃ token others, tokens = token :: others ∧ sign.Fits token ∧ Writes signs others := by
  constructor
  · intro h
    obtain ⟨token, others, htoken, hothers, rfl⟩ := List.forall₂_cons_left_iff.mp h
    exact ⟨token, others, rfl, htoken, hothers⟩
  · rintro ⟨token, others, rfl, htoken, hothers⟩
    exact .cons htoken hothers

theorem writes_singleton {sign : Sign} {tokens : List Token} :
    Writes [sign] tokens ↔ ∃ token, tokens = [token] ∧ sign.Fits token := by
  constructor
  · intro h
    obtain ⟨token, others, rfl, htoken, hothers⟩ := writes_cons.mp h
    exact ⟨token, by rw [List.forall₂_nil_left_iff.mp hothers], htoken⟩
  · rintro ⟨token, rfl, htoken⟩
    exact .cons htoken .nil

theorem writes_mark_cons {kind : TokenKind} {signs : List Sign} {tokens : List Token}
    (h : Writes (.mark kind :: signs) tokens) :
    ∃ token others, tokens = token :: others ∧ token.newlineBefore = false ∧ token.kind = kind ∧
      Writes signs others := by
  obtain ⟨token, others, rfl, ⟨hline, hkind⟩, hothers⟩ := writes_cons.mp h
  exact ⟨token, others, rfl, hline, hkind, hothers⟩

theorem writes_enclosed {opening closing : TokenKind} {signs : List Sign} {tokens : List Token}
    (h : Writes (.mark opening :: (signs ++ [.mark closing])) tokens) :
    ∃ first inner last, tokens = first :: (inner ++ [last]) ∧ first.newlineBefore = false ∧
      first.kind = opening ∧ last.kind = closing ∧ Writes signs inner := by
  obtain ⟨first, others, rfl, hline, hfirst, hothers⟩ := writes_mark_cons h
  obtain ⟨inner, _, rfl, hinner, hlast⟩ := writes_append.mp hothers
  obtain ⟨last, rfl, -, hkind⟩ := writes_singleton.mp hlast
  exact ⟨first, inner, last, rfl, hline, hfirst, hkind, hinner⟩

/-- Whether there is a token for a sign and none that is an arrow. -/
structure Sign.Sound (sign : Sign) : Prop where
  exists_token : ∃ token, sign.Fits token
  not_arrow : ∀ token, sign.Fits token → token.kind ≠ .arrow

/-- Signs that tokens can fit, and none of them an arrow. -/
def SoundSigns (signs : List Sign) : Prop :=
  ∀ sign ∈ signs, sign.Sound

namespace Sign.Sound

theorem mark {kind : TokenKind} (h : kind ≠ .arrow) : (Sign.mark kind).Sound :=
  ⟨⟨⟨kind, "", ⟨0, 0⟩, false⟩, rfl, rfl⟩, fun _ htoken => htoken.2 ▸ h⟩

theorem word {kind : TokenKind} (text : String) (h : kind ≠ .arrow) :
    (Sign.word kind text).Sound :=
  ⟨⟨⟨kind, text, ⟨0, 0⟩, false⟩, rfl, rfl, rfl⟩, fun _ htoken => htoken.2.1 ▸ h⟩

theorem number {value : Binary64} {text : String} (h : Literal.value? text = some value) :
    (Sign.number value).Sound :=
  ⟨⟨⟨.number, text, ⟨0, 0⟩, false⟩, rfl, rfl, h⟩, fun _ htoken => by rw [htoken.2.1]; decide⟩

theorem key (name : String) : (Sign.key name).Sound := by
  refine ⟨⟨⟨.ofWord name, name, ⟨0, 0⟩, false⟩, rfl, List.mem_cons_self, rfl⟩,
    fun token htoken harrow => ?_⟩
  have hkind := htoken.2.1
  rw [harrow, List.mem_cons] at hkind
  rcases hkind with hkind | hkind
  · exact TokenKind.ofWord_ne name (by decide) hkind.symm
  · exact absurd hkind (by decide)

end Sign.Sound

theorem soundSigns_append {signs others : List Sign} :
    SoundSigns (signs ++ others) ↔ SoundSigns signs ∧ SoundSigns others :=
  List.forall_mem_append

theorem soundSigns_cons {sign : Sign} {signs : List Sign} :
    SoundSigns (sign :: signs) ↔ sign.Sound ∧ SoundSigns signs :=
  List.forall_mem_cons

theorem soundSigns_commas {items : List (List Sign)} (h : ∀ item ∈ items, SoundSigns item) :
    SoundSigns (commas items) := by
  induction items using commas.induct with
  | case1 => exact fun _ hsign => nomatch hsign
  | case2 item => exact h item List.mem_cons_self
  | case3 item next others ih =>
      rw [commas, soundSigns_append, soundSigns_cons]
      exact ⟨h item List.mem_cons_self, Sign.Sound.mark (by decide),
        ih fun other hother => h other (List.mem_cons_of_mem item hother)⟩

theorem soundSigns_templateSigns {items : List (List Sign)} {texts : List String}
    (h : ∀ item ∈ items, SoundSigns item) : SoundSigns (templateSigns items texts) := by
  induction items, texts using templateSigns.induct with
  | case1 item text =>
      rw [templateSigns, soundSigns_append]
      exact ⟨h item List.mem_cons_self,
        List.forall_mem_singleton.mpr (Sign.Sound.word text (by decide))⟩
  | case2 item others text texts hmore ih =>
      rw [templateSigns, soundSigns_append, soundSigns_cons]
      · exact ⟨h item List.mem_cons_self, Sign.Sound.word text (by decide),
          ih fun other hother => h other (List.mem_cons_of_mem item hother)⟩
      · exact hmore
  | case3 items texts hone hmore =>
      rw [templateSigns]
      · exact fun _ hsign => nomatch hsign
      · exact hone
      · exact hmore

theorem SoundSigns.exists_writes {signs : List Sign} (h : SoundSigns signs) :
    ∃ tokens, Writes signs tokens := by
  induction signs with
  | nil => exact ⟨[], .nil⟩
  | cons sign others ih =>
      rw [soundSigns_cons] at h
      obtain ⟨token, htoken⟩ := h.1.exists_token
      obtain ⟨tokens, htokens⟩ := ih h.2
      exact ⟨token :: tokens, .cons htoken htokens⟩

theorem SoundSigns.not_arrow {signs : List Sign} {tokens : List Token} (h : SoundSigns signs)
    (htokens : Writes signs tokens) : ∀ token ∈ tokens, token.kind ≠ .arrow := by
  induction htokens with
  | nil => exact fun _ htoken => nomatch htoken
  | @cons sign token signs tokens hfits _ ih =>
      rw [soundSigns_cons] at h
      exact List.forall_mem_cons.mpr ⟨h.1.not_arrow token hfits, ih h.2⟩

theorem soundSigns_nil : SoundSigns [] :=
  fun _ hsign => nomatch hsign

theorem soundSigns_operand {expr : Expr} (h : SoundSigns expr.print) :
    SoundSigns expr.printOperand := by
  cases hbare : expr.standsBare with
  | true => rwa [expr.printOperand_of_bare hbare]
  | false =>
      rw [expr.printOperand_of_not_bare hbare, soundSigns_cons, soundSigns_append, soundSigns_cons]
      exact ⟨.mark (by decide), h, .mark (by decide), soundSigns_nil⟩

theorem soundSigns_item {item : Expr} (h : SoundSigns item.unspread.print) :
    SoundSigns item.printOperand := by
  cases hspread : item.isSpread with
  | false => exact soundSigns_operand (item.unspread_of_not_spread hspread ▸ h)
  | true =>
      cases item <;> cases hspread
      exact soundSigns_cons.mpr ⟨.mark (by decide), soundSigns_operand h⟩

theorem soundSigns_items {items : List Expr}
    (h : ∀ item ∈ items, SoundSigns item.unspread.print) :
    SoundSigns (commas (printEach items)) := by
  rw [printEach_eq]
  exact soundSigns_commas (List.forall_mem_map.mpr fun item hitem => soundSigns_item (h item hitem))

theorem soundSigns_properties {properties : List Property}
    (h : ∀ property ∈ properties, SoundSigns property.value.unspread.print) :
    SoundSigns (commas (printProperties properties)) := by
  rw [printProperties_eq]
  refine soundSigns_commas (List.forall_mem_map.mpr fun property hproperty => ?_)
  have hvalue := soundSigns_item (h property hproperty)
  rw [Property.print]
  split
  · rwa [Expr.printOperand_of_bare (Expr.standsBare_of_isSpread ‹_›)] at hvalue
  · exact soundSigns_cons.mpr ⟨.key _, soundSigns_cons.mpr ⟨.mark (by decide), hvalue⟩⟩

theorem Token.sound_sign {token : Token} {kinds : List TokenKind} (h : token.kind ∈ kinds)
    (hkinds : .arrow ∉ kinds) : token.sign.Sound :=
  .word token.text (ne_of_mem_of_not_mem h hkinds)

theorem Expr.Printable.soundSigns {expr : Expr} (h : expr.Printable) : SoundSigns expr.print := by
  induction h with
  | number text h => exact List.forall_mem_singleton.mpr (.number h)
  | @string value template _ =>
      exact List.forall_mem_singleton.mpr (.word value (by cases template <;> decide))
  | @boolean value _ =>
      exact List.forall_mem_singleton.mpr (.mark (by cases value <;> decide))
  | null => exact List.forall_mem_singleton.mpr (.mark (by decide))
  | symbol => exact List.forall_mem_singleton.mpr (.word _ (by decide))
  | regex => exact List.forall_mem_singleton.mpr (.word _ (by decide))
  | array _ ih =>
      simp only [print, soundSigns_cons, soundSigns_append]
      exact ⟨.mark (by decide), soundSigns_items ih, .mark (by decide), soundSigns_nil⟩
  | object _ _ ih =>
      simp only [print, soundSigns_cons, soundSigns_append]
      exact ⟨.mark (by decide), soundSigns_properties ih, .mark (by decide),
        soundSigns_nil⟩
  | binary hoperator _ _ ihleft ihright =>
      exact soundSigns_append.mpr ⟨soundSigns_operand ihleft, soundSigns_cons.mpr
        ⟨Token.sound_sign hoperator (by decide), soundSigns_operand ihright⟩⟩
  | unary hoperator _ ih =>
      exact soundSigns_cons.mpr ⟨Token.sound_sign hoperator (by decide), soundSigns_operand ih⟩
  | @update _ _ leading _ hoperator _ _ ih =>
      have hsign := Token.sound_sign hoperator (by decide)
      cases leading with
      | true => exact soundSigns_cons.mpr ⟨hsign, soundSigns_operand ih⟩
      | false =>
          exact soundSigns_append.mpr
            ⟨soundSigns_operand ih, soundSigns_cons.mpr ⟨hsign, soundSigns_nil⟩⟩
  | assignment hoperator _ _ _ ihtarget ihvalue =>
      exact soundSigns_append.mpr ⟨soundSigns_operand ihtarget, soundSigns_cons.mpr
        ⟨Token.sound_sign hoperator (by decide), soundSigns_operand ihvalue⟩⟩
  | call _ _ ihcallee ih =>
      simp only [print, soundSigns_cons, soundSigns_append]
      exact ⟨soundSigns_operand ihcallee, .mark (by decide), soundSigns_items ih,
        .mark (by decide), soundSigns_nil⟩
  | @member _ name _ _ ih =>
      simp only [print, soundSigns_cons, soundSigns_append]
      exact ⟨soundSigns_operand ih, .mark (by decide),
        .word name (TokenKind.ofWord_ne name (by decide)), soundSigns_nil⟩
  | index _ _ ihobject ihindex =>
      simp only [print, soundSigns_cons, soundSigns_append]
      exact ⟨soundSigns_operand ihobject, .mark (by decide), soundSigns_operand ihindex,
        .mark (by decide), soundSigns_nil⟩
  | new _ _ ihcallee ih =>
      simp only [print, soundSigns_cons, soundSigns_append]
      exact ⟨.mark (by decide), soundSigns_operand ihcallee, .mark (by decide),
        soundSigns_items ih, .mark (by decide), soundSigns_nil⟩
  | conditional _ _ _ ihtest ihconsequent ihalternate =>
      simp only [print, soundSigns_cons, soundSigns_append]
      exact ⟨soundSigns_operand ihtest, .mark (by decide), soundSigns_operand ihconsequent,
        .mark (by decide), soundSigns_operand ihalternate⟩
  | template _ _ _ ih =>
      refine soundSigns_cons.mpr ⟨.word _ (by decide), soundSigns_templateSigns ?_⟩
      rw [printEach_eq]
      exact List.forall_mem_map.mpr fun substitution hsubstitution =>
        soundSigns_operand (ih substitution hsubstitution)
  | sequence _ _ ih =>
      rw [print, printEach_eq]
      exact soundSigns_commas (List.forall_mem_map.mpr fun operand hoperand =>
        soundSigns_operand (ih operand hoperand))

end Tokens

end ScriptKinds
