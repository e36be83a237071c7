namespace ScriptKinds

inductive TokenKind where
  | endOfInput | number | string | template | templateHead | templateMiddle | templateTail
  | regex | identifier
  | openBracket | closeBracket | openCurly | closeCurly | openParen | closeParen
  | assignment | equals | strictEquals | not | notEquals | strictNotEquals | less | lessEquals
  | greater | greaterEquals | or | and | nullish
  | dot | semicolon | colon | question | comma | arrow | ellipsis
  | plusPlus | minusMinus | plusEquals | minusEquals | slashEquals | starEquals | percentEquals
  | starStarEquals | ampersandEquals | pipeEquals | caretEquals | shiftLeftEquals
  | shiftRightEquals | unsignedShiftRightEquals
  | plus | dash | slash | star | percent | starStar
  | tilde | ampersand | pipe | caret | shiftLeft | shiftRight | unsignedShiftRight
  | varWord | letWord | constWord | functionWord | newWord | importWord | exportWord
  | returnWord | ifWord | elseWord | whileWord | doWord | forWord | inWord | breakWord
  | continueWord | trueWord | falseWord | nullWord | typeofWord | voidWord | instanceofWord
  | deleteWord | tryWord | catchWord | finallyWord | throwWord | switchWord | caseWord
  | classWord | extendsWord
deriving DecidableEq, Repr, Inhabited

namespace TokenKind

/-- The name under which messages mention a kind. -/
def name : TokenKind → String
  | endOfInput => "EOF"
  | number => "Number"
  | string => "String"
  | template => "Template"
  | templateHead => "TemplateHead"
  | templateMiddle => "TemplateMiddle"
  | templateTail => "TemplateTail"
  | regex => "Regex"
  | identifier => "Identifier"
  | openBracket => "OpenBracket"
  | closeBracket => "CloseBracket"
  | openCurly => "OpenCurly"
  | closeCurly => "CloseCurly"
  | openParen => "OpenParen"
  | closeParen => "CloseParen"
  | assignment => "Assignment"
  | equals => "Equals"
  | strictEquals => "StrictEquals"
  | not => "Not"
  | notEquals => "NotEquals"
  | strictNotEquals => "StrictNotEquals"
  | less => "Less"
  | lessEquals => "LessEquals"
  | greater => "Greater"
  | greaterEquals => "GreaterEquals"
  | or => "Or"
  | and => "And"
  | nullish => "Nullish"
  | dot => "Dot"
  | semicolon => "Semicolon"
  | colon => "Colon"
  | question => "Question"
  | comma => "Comma"
  | arrow => "Arrow"
  | ellipsis => "Ellipsis"
  | plusPlus => "PlusPlus"
  | minusMinus => "MinusMinus"
  | plusEquals => "PlusEquals"
  | minusEquals => "MinusEquals"
  | slashEquals => "SlashEquals"
  | starEquals => "StarEquals"
  | percentEquals => "PercentEquals"
  | starStarEquals => "StarStarEquals"
  | ampersandEquals => "AmpersandEquals"
  | pipeEquals => "PipeEquals"
  | caretEquals => "CaretEquals"
  | shiftLeftEquals => "ShiftLeftEquals"
  | shiftRightEquals => "ShiftRightEquals"
  | unsignedShiftRightEquals => "UnsignedShiftRightEquals"
  | plus => "Plus"
  | dash => "Dash"
  | slash => "Slash"
  | star => "Star"
  | percent => "Percent"
  | starStar => "StarStar"
  | tilde => "Tilde"
  | ampersand => "Ampersand"
  | pipe => "Pipe"
  | caret => "Caret"
  | shiftLeft => "ShiftLeft"
  | shiftRight => "ShiftRight"
  | unsignedShiftRight => "UnsignedShiftRight"
  | varWord => "Var"
  | letWord => "Let"
  | constWord => "Const"
  | functionWord => "Function"
  | newWord => "New"
  | importWord => "Import"
  | exportWord => "Export"
  | returnWord => "Return"
  | ifWord => "If"
  | elseWord => "Else"
  | whileWord => "While"
  | doWord => "Do"
  | forWord => "For"
  | inWord => "In"
  | breakWord => "Break"
  | continueWord => "Continue"
  | trueWord => "True"
  | falseWord => "False"
  | nullWord => "Null"
  | typeofWord => "Typeof"
  | voidWord => "Void"
  | instanceofWord => "Instanceof"
  | deleteWord => "Delete"
  | tryWord => "Try"
  | catchWord => "Catch"
  | finallyWord => "Finally"
  | throwWord => "Throw"
  | switchWord => "Switch"
  | caseWord => "Case"
  | classWord => "Class"
  | extendsWord => "Extends"

def all : List TokenKind :=
  [endOfInput, number, string, template, templateHead, templateMiddle, templateTail, regex,
    identifier, openBracket, closeBracket, openCurly, closeCurly, openParen, closeParen,
    assignment, equals, strictEquals, not, notEquals, strictNotEquals, less, lessEquals,
    greater, greaterEquals, or, and, nullish, dot, semicolon, colon, question, comma, arrow,
    ellipsis, plusPlus, minusMinus, plusEquals, minusEquals, slashEquals, starEquals,
    percentEquals, starStarEquals, ampersandEquals, pipeEquals, caretEquals, shiftLeftEquals,
    shiftRightEquals, unsignedShiftRightEquals, plus, dash, slash, star, percent, starStar,
    tilde, ampersand, pipe, caret, shiftLeft, shiftRight, unsignedShiftRight, varWord, letWord,
    constWord, functionWord, newWord, importWord, exportWord, returnWord, ifWord, elseWord,
    whileWord, doWord, forWord, inWord, breakWord, continueWord, trueWord, falseWord, nullWord,
    typeofWord, voidWord, instanceofWord, deleteWord, tryWord, catchWord, finallyWord,
    throwWord, switchWord, caseWord, classWord, extendsWord]

theorem mem_all (kind : TokenKind) : kind ∈ all := by
  cases kind <;> decide

def ofName? (name : String) : Option TokenKind :=
  all.find? fun kind => kind.name == name

/-- The reserved words with their kinds. -/
def reservedWords : List (String × TokenKind) :=
  [("var", varWord), ("let", letWord), ("const", constWord), ("function", functionWord),
    ("new", newWord), ("import", importWord), ("export", exportWord), ("return", returnWord),
    ("if", ifWord), ("else", elseWord), ("while", whileWord), ("do", doWord), ("for", forWord),
    ("in", inWord), ("break", breakWord), ("continue", continueWord), ("true", trueWord),
    ("false", falseWord), ("null", nullWord), ("typeof", typeofWord), ("void", voidWord),
    ("instanceof", instanceofWord), ("delete", deleteWord), ("try", tryWord),
    ("catch", catchWord), ("finally", finallyWord), ("throw", throwWord),
    ("switch", switchWord), ("case", caseWord), ("class", classWord), ("extends", extendsWord)]

/-- The kind of a word, if it is reserved. -/
def ofReserved? (word : String) : Option TokenKind :=
  reservedWords.lookup word

/-- The kind of a word: that of the reserved word, or `identifier`. -/
def ofWord (word : String) : TokenKind :=
  (ofReserved? word).getD identifier

theorem ofWord_mem (word : String) :
    ofWord word ∈ identifier :: reservedWords.map Prod.snd := by
  rw [ofWord, ofReserved?]
  cases hlookup : reservedWords.lookup word with
  | none => exact List.mem_cons_self
  | some kind =>
      obtain ⟨before, after, hsplit, -⟩ := List.lookup_eq_some_iff.mp hlookup
      refine List.mem_cons_of_mem _ (List.mem_map.mpr ⟨(word, kind), ?_, rfl⟩)
      simp [hsplit]

theorem ofWord_ne (word : String) {kind : TokenKind}
    (h : kind ∉ identifier :: reservedWords.map Prod.snd) : ofWord word ≠ kind :=
  fun heq => h (heq ▸ ofWord_mem word)

/-- The operators and punctuation marks with their kinds, in the order in which
they are tried.  The first one that matches is taken, so an operator stands
before those that it starts with. -/
def operators : List (String × TokenKind) :=
  [("/=", slashEquals), ("/", slash), ("[", openBracket), ("]", closeBracket),
    ("\x7b", openCurly), ("\x7d", closeCurly), ("(", openParen), (")", closeParen),
    ("===", strictEquals), ("==", equals), ("=>", arrow), ("!==", strictNotEquals),
    ("!=", notEquals), ("!", not), ("=", assignment), ("<<=", shiftLeftEquals),
    ("<<", shiftLeft), ("<=", lessEquals), ("<", less), (">>>=", unsignedShiftRightEquals),
    (">>>", unsignedShiftRight), (">>=", shiftRightEquals), (">>", shiftRight),
    (">=", greaterEquals), (">", greater), ("||", or), ("|=", pipeEquals), ("|", pipe),
    ("&&", and), ("&=", ampersandEquals), ("&", ampersand), ("^=", caretEquals), ("^", caret),
    ("~", tilde), ("??", nullish), ("...", ellipsis), (".", dot), (";", semicolon),
    (":", colon), ("?", question), (",", comma), ("++", plusPlus), ("--", minusMinus),
    ("+=", plusEquals), ("-=", minusEquals), ("**=", starStarEquals), ("**", starStar),
    ("*=", starEquals), ("%=", percentEquals), ("+", plus), ("-", dash), ("*", star),
    ("%", percent)]

end TokenKind

end ScriptKinds
