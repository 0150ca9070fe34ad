/-
  The words and operators that highlighting knows.

  * `Word` and `Operator` are texts that passed the check of their class: a word
    is an ASCII identifier, an operator is not empty and has no identifier
    character, no white space and no `;`;
  * `Vocabulary.ofLists` checks the entries of three lists, keywords first, then
    platform globals, then operators, and names the first bad one;
  * a vocabulary keeps the first of equal entries, and orders its operators by
    decreasing length, so no operator comes behind one that is a part of it;
  * `Vocabulary.builtin` is the vocabulary of JavaScript on a workers platform,
    and `Vocabulary.extended` adds words to it.
-/
import CodeSnippets.Highlight.Escape
import CodeSnippets.Text.Quoted

namespace CodeSnippets

/-! ## Entries -/

/-- A word of a vocabulary. -/
structure Word where
  spelling : Text
  valid : isIdentifier spelling = true
  deriving DecidableEq

/-- The word with a spelling, if it is an identifier. -/
def Word.ofText? (t : Text) : Option Word :=
  if h : isIdentifier t = true then some ⟨t, h⟩ else none

theorem Word.spelling_of_ofText? {t : Text} {w : Word} (h : Word.ofText? t = some w) :
    w.spelling = t := by
  unfold Word.ofText? at h
  split at h
  · cases h
    rfl
  · simp at h

/-- A character that no operator may hold. -/
def isBarredFromOperators (c : Char) : Bool := isIdentifierPart c || isWhitespace c || c == ';'

/-- Whether a text can be an operator. -/
def isOperatorSpelling (t : Text) : Bool := !t.isEmpty && t.all fun c => !isBarredFromOperators c

/-- An operator of a vocabulary, as it is written in a source. -/
structure Operator where
  spelling : Text
  valid : isOperatorSpelling spelling = true
  deriving DecidableEq

/-- The operator with a spelling, if it can be one. -/
def Operator.ofText? (t : Text) : Option Operator :=
  if h : isOperatorSpelling t = true then some ⟨t, h⟩ else none

/-- The operator as it is written in escaped text. -/
def Operator.escaped (o : Operator) : Text := escape o.spelling

/-! ## Errors -/

/-- Why a vocabulary cannot be built. -/
inductive VocabularyError where
  /-- a word that is no identifier -/
  | invalidWord (spelling : Text)
  /-- an operator that is empty or holds a barred character -/
  | invalidOperator (spelling : Text)
  deriving DecidableEq, Repr

/-- The message of an error. -/
def VocabularyError.message : VocabularyError → Text
  | .invalidWord t => "Not an identifier: ".toList ++ t.quoted
  | .invalidOperator t => "Invalid operator: ".toList ++ t.quoted

/-! ## Vocabularies -/

/-- Keywords, platform globals and operators; the operators are in the order in
    which they are tried. -/
structure Vocabulary where
  keywords : List Word
  globals : List Word
  operators : List Operator
  longest_first : operators.Pairwise fun a b => b.spelling.length ≤ a.spelling.length

/-- The operators by decreasing length, those of one length in the order given. -/
def sortOperators (os : List Operator) : List Operator :=
  os.mergeSort fun a b => b.spelling.length ≤ a.spelling.length

theorem sortOperators_pairwise (os : List Operator) :
    (sortOperators os).Pairwise fun a b => b.spelling.length ≤ a.spelling.length := by
  have h := @List.pairwise_mergeSort Operator
    (fun a b => decide (b.spelling.length ≤ a.spelling.length))
    (fun a b c hab hbc => by simp at *; omega) (fun a b => by simp; omega) os
  simpa [sortOperators] using h

namespace Vocabulary

/-- The vocabulary with some entries, of equal ones the first only. -/
def ofEntries (keywords globals : List Word) (operators : List Operator) : Vocabulary where
  keywords := keywords.eraseDups
  globals := globals.eraseDups
  operators := sortOperators operators.eraseDups
  longest_first := sortOperators_pairwise _

/-- All entries of a list, or the first that is not valid. -/
def checked {α : Type} (check : Text → Option α) : List Text → Except Text (List α)
  | [] => .ok []
  | t :: rest =>
    match check t with
    | none => .error t
    | some a => (checked check rest).map (a :: ·)

/-- The vocabulary with the given spellings. -/
def ofLists (keywords globals operators : List Text) : Except VocabularyError Vocabulary := do
  let keywords ← (checked Word.ofText? keywords).mapError .invalidWord
  let globals ← (checked Word.ofText? globals).mapError .invalidWord
  let operators ← (checked Operator.ofText? operators).mapError .invalidOperator
  return ofEntries keywords globals operators

/-- Whether a text is a keyword. -/
def isKeyword (v : Vocabulary) (t : Text) : Bool := v.keywords.any fun w => w.spelling == t

/-- Whether a text is a platform global. -/
def isGlobal (v : Vocabulary) (t : Text) : Bool := v.globals.any fun w => w.spelling == t

/-! ## The built-in tables -/

/-- The keywords of the language. -/
def builtinKeywords : List Text :=
  ["break", "case", "catch", "class", "const", "continue", "debugger", "default", "delete", "do",
   "else", "export", "extends", "false", "finally", "for", "function", "if", "import", "in",
   "instanceof", "let", "new", "null", "return", "super", "switch", "this", "throw", "true",
   "try", "typeof", "var", "void", "while", "with", "yield", "async", "await"].map String.toList

/-- The globals that the platform offers. -/
def builtinGlobals : List Text :=
  ["addEventListener", "removeEventListener", "fetch", "request", "response", "Request",
   "Response", "Headers", "URL", "URLSearchParams", "DurableObject", "KVNamespace", "R2Bucket",
   "Cache", "crypto", "console", "setTimeout", "clearTimeout", "setInterval", "clearInterval",
   "atob", "btoa", "WebSocket", "TransformStream", "ReadableStream", "WritableStream", "env",
   "ctx", "waitUntil"].map String.toList

/-- The operators of the language. -/
def builtinOperators : List Text :=
  ["+", "-", "*", "/", "==", "===", "!=", "!==", ">", "<", ">=", "<=", "&&", "||", "!", "++",
   "--", "%", "&", "|", "^", "~", "<<", ">>", ">>>", "+=", "-=", "*=", "/=", "%=", "&=", "|=",
   "^=", "<<=", ">>=", ">>>="].map String.toList

/-- The built-in vocabulary. -/
def builtin : Vocabulary :=
  ofEntries (builtinKeywords.filterMap Word.ofText?) (builtinGlobals.filterMap Word.ofText?)
    (builtinOperators.filterMap Operator.ofText?)

/-- The built-in vocabulary with more keywords and globals behind its own. -/
def extended (moreKeywords moreGlobals : List Text) : Except VocabularyError Vocabulary :=
  ofLists (builtinKeywords ++ moreKeywords) (builtinGlobals ++ moreGlobals) builtinOperators

end Vocabulary

end CodeSnippets
