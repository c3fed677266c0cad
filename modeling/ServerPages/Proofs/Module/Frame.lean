import ServerPages.Module.Assembly
import ServerPages.Proofs.Code.Scalars

/-!
# The frame of a module

Every module has the same frame: an import, and a function with helpers for the page and with the
guard around the page's own statements. This module holds the frame as lines of pieces, as tokens
and as trees, each part of it on its own lines, and shows that each part is parsed as its tree,
whatever stands behind it.
-/

namespace ServerPages

namespace Frame

open Code Code.Expression

/-! ### Lines -/

/-- A piece whose kind is told by its first character. -/
def pieceOf (s : Text) : Piece :=
  match s with
  | [] => ⟨.stray, []⟩
  | c :: _ => ⟨if Text.isPlainWord c then .name else if c = '"' then .string else .operator, s⟩

/-- A line of code; the spaces before a piece are written with it. -/
def codeLine (margin : Nat) (pieces : List String) : Line :=
  match pieces with
  | [] => .blank
  | first :: rest => .code margin (pieceOf first.toList) (rest.map fun p =>
      ((p.toList.takeWhile (· = ' ')).length, pieceOf (p.toList.dropWhile (· = ' '))))

def importLine : Line := codeLine 0 ["import", " gosp"]

def entryLine : Line :=
  codeLine 0 ["def", " gosp_generate_page", "(", "gosp_req", ",", " gosp_out", ",", " gosp_meta",
    ")", ":"]

def purposeLine : Line :=
  codeLine 4 ["\"\"\"Write the page to gosp_out and its metadata to gosp_meta.\"\"\""]

def statusLine : Line := codeLine 4 ["def", " gosp_set_http_status", "(", "status", ")", ":"]

def statusBody : Line :=
  codeLine 8 ["gosp", ".", "set_http_status", "(", "gosp_meta", ",", " status", ")"]

def mimeLine : Line := codeLine 4 ["def", " gosp_set_mime_type", "(", "mime_type", ")", ":"]

def mimeBody : Line :=
  codeLine 8 ["gosp", ".", "set_mime_type", "(", "gosp_meta", ",", " mime_type", ")"]

def fieldLine : Line :=
  codeLine 4 ["def", " gosp_set_header_field", "(", "key", ",", " value", ",", " replace", "=",
    "False", ")", ":"]

def fieldBody : Line :=
  codeLine 8 ["gosp", ".", "set_header_field", "(", "gosp_meta", ",", " key", ",", " value", ",",
    " replace", ")"]

def openLine : Line :=
  codeLine 4 ["def", " gosp_open", "(", "name", ",", " mode", "=", "\"r\"", ",", " **", "kwargs",
    ")", ":"]

def baseLine : Line :=
  codeLine 8 ["base", " =", " gosp_req", ".", "base_dir", " if", " gosp_req", " is", " not",
    " None", " else", " None"]

def openBody : Line :=
  codeLine 8 ["return", " gosp", ".", "open", "(", "name", ",", " mode", ",", " base", "=", "base",
    ",", " **", "kwargs", ")"]

def tryLine : Line := codeLine 4 ["try", ":"]

def passLine : Line := codeLine 8 ["pass"]

def exceptLine : Line := codeLine 4 ["except", " BaseException", " as", " gosp_exc", ":"]

def reportLine : Line :=
  codeLine 8 ["gosp", ".", "report_failure", "(", "gosp_meta", ",", " gosp_exc", ")"]

def finallyLine : Line := codeLine 4 ["finally", ":"]

def closeLine : Line := codeLine 8 ["gosp_meta", ".", "close", "(", ")"]

/-- The lines before the statements of a page. -/
def begins : List Line :=
  [.comment 0 " This file was generated by gosp2py.".toList, .blank, importLine, .blank, .blank,
    .blank, entryLine, purposeLine,
    .comment 4 " Provide functions for passing metadata back to the web server.".toList,
    statusLine, statusBody, .blank, mimeLine, mimeBody, .blank, fieldLine, fieldBody, .blank,
    .comment 4 " Files are opened relative to the page's directory and never outside it.".toList,
    openLine, baseLine, openBody, .blank,
    .comment 4 " Express the page in Python.  On failure report an internal server".toList,
    .comment 4 " error.  In every case close the metadata channel.".toList, tryLine, passLine]

/-- The lines behind the statements of a page. -/
def ends : List Line := [exceptLine, reportLine, finallyLine, closeLine]

-- The characters of the literals are told by rewriting: to compute them takes far longer.
theorem text_begins : begins.flatMap Line.text = Module.header ++ Module.bodyBegin := by
  unfold begins importLine entryLine purposeLine statusLine statusBody mimeLine mimeBody fieldLine
    fieldBody openLine baseLine openBody tryLine passLine Module.header Module.bodyBegin
    Module.ofLines codeLine
  simp only [-String.reduceToList, List.map_cons, List.map_nil, List.flatMap_cons,
    List.flatMap_nil]
  repeat rewrite [String.toList_ofList]
  rfl

theorem text_ends : ends.flatMap Line.text = Module.bodyEnd := by decide +kernel

/-! ### Tokens -/

/-- The tokens of a line but for the changes of indentation. -/
def tokens (line : Nat) : Line → List Token
  | .code margin first rest =>
    placed line margin ((0, first) :: rest) ++
      [⟨.newline, ['\n'], line, margin + (piecesText ((0, first) :: rest)).length⟩]
  | _ => []

/-- The beginning of an indented block. -/
def indent (line margin : Nat) : Token := ⟨.indent, List.replicate margin ' ', line, 0⟩

/-- The end of an indented block. -/
def dedent (line margin : Nat) : Token := ⟨.dedent, [], line, margin⟩

def importTokens : List Token := tokens 3 importLine

def entryTokens : List Token := tokens 7 entryLine ++ [indent 8 4]

def purposeTokens : List Token := tokens 8 purposeLine

def statusTokens : List Token :=
  tokens 10 statusLine ++ indent 11 8 :: tokens 11 statusBody ++ [dedent 13 4]

def mimeTokens : List Token :=
  tokens 13 mimeLine ++ indent 14 8 :: tokens 14 mimeBody ++ [dedent 16 4]

def fieldTokens : List Token :=
  tokens 16 fieldLine ++ indent 17 8 :: tokens 17 fieldBody ++ [dedent 20 4]

def openTokens : List Token :=
  tokens 20 openLine ++ indent 21 8 :: tokens 21 baseLine ++ tokens 22 openBody ++ [dedent 26 4]

def tryTokens : List Token := tokens 26 tryLine ++ [indent 27 8]

def passTokens : List Token := tokens 27 passLine

/-- The tokens of the handler, on lines from some number on. -/
def exceptTokens (line : Nat) : List Token :=
  tokens line exceptLine ++ indent (line + 1) 8 :: tokens (line + 1) reportLine ++
    [dedent (line + 2) 4]

def finallyTokens (line : Nat) : List Token :=
  tokens (line + 2) finallyLine ++ indent (line + 3) 8 :: tokens (line + 3) closeLine

theorem read_begins : readLines 1 [] begins =
    some (importTokens ++ entryTokens ++ purposeTokens ++ statusTokens ++ mimeTokens ++
      fieldTokens ++ openTokens ++ tryTokens ++ passTokens, [(8, 8), (4, 4)]) := by
  decide +kernel

set_option maxRecDepth 10000 in
theorem read_ends (line : Nat) : readLines line [(8, 8), (4, 4)] ends =
    some (dedent line 4 :: exceptTokens line ++ finallyTokens line, [(8, 8), (4, 4)]) := by
  rfl

/-! ### Trees -/

/-- The tree of parameters with the values of the last of them. -/
def parameters (line : Nat) (names : List Text) (defaults : List Constant) : Tree :=
  .node (.arguments names) line
    (names.map (fun id => .node (.parameter id) line []) ++
      defaults.map fun c => .node (.constant c) line [])

/-- The tree of a function. -/
def function (line : Nat) (name : Text) (params : Tree) (body : List Tree) : Tree :=
  .node (.function name body.length) line (params :: body)

/-- The tree of a function that hands its parameters on to a member of the page library. -/
def helper (line : Nat) (member : Text) (names : List Text) (defaults : List Constant) : Tree :=
  function line ("gosp_".toList ++ member) (parameters line names defaults)
    [.node .expression (line + 1) [memberCall (line + 1) "gosp".toList member
      (nameTree (line + 1) "gosp_meta".toList :: names.map (nameTree (line + 1)))]]

def importTree : Tree := .node (.importModules ["gosp".toList]) 3 []

def purposeTree : Tree :=
  .node .expression 8 [.node (.constant (.text
    "Write the page to gosp_out and its metadata to gosp_meta.".toList)) 8 []]

def statusTree : Tree := helper 10 "set_http_status".toList ["status".toList] []

def mimeTree : Tree := helper 13 "set_mime_type".toList ["mime_type".toList] []

def fieldTree : Tree :=
  helper 16 "set_header_field".toList ["key".toList, "value".toList, "replace".toList]
    [.bool false]

/-- The directory of the request, where there is one. -/
def baseTree : Tree :=
  .node .assignment 21 [nameTree 21 "base".toList, .node .conditional 21
    [.node (.comparison ["is not".toList]) 21
      [nameTree 21 "gosp_req".toList, .node (.constant .none) 21 []],
    .node (.attribute "base_dir".toList) 21 [nameTree 21 "gosp_req".toList],
    .node (.constant .none) 21 []]]

def openTree : Tree :=
  function 20 "gosp_open".toList
    (parameters 20 ["name".toList, "mode".toList, "kwargs".toList] [.text ['r']])
    [baseTree, .node .returned 22 [memberCall 22 "gosp".toList "open".toList
      [nameTree 22 "name".toList, nameTree 22 "mode".toList,
        .node (.keyword (some "base".toList)) 22 [nameTree 22 "base".toList],
        .node (.keyword none) 22 [nameTree 22 "kwargs".toList]]]]

def passTree : Tree := .node .pass 27 []

def exceptTree (line : Nat) : Tree :=
  .node (.handler (some "gosp_exc".toList) true) line [nameTree line "BaseException".toList,
    .node .expression (line + 1) [memberCall (line + 1) "gosp".toList "report_failure".toList
      [nameTree (line + 1) "gosp_meta".toList, nameTree (line + 1) "gosp_exc".toList]]]

def closeTree (line : Nat) : Tree :=
  .node .expression (line + 3) [memberCall (line + 3) "gosp_meta".toList "close".toList []]

/-! ### Parsing -/

section

variable {pattern : PatternGoal → Parser Tree} {n m : Nat} {u : Token} {rest : List Token}

/-- The parser of statements in a program that is long enough for the frame. -/
abbrev statementParser (pattern : PatternGoal → Parser Tree) (n m : Nat) : Parser (List Tree) :=
  Statement.parse (Expression.parse (n + 40)) pattern (m + 10) .statement

theorem parse_import : statementParser pattern n m (importTokens ++ u :: rest) =
    .ok ([importTree], u :: rest) := by
  rfl

set_option maxRecDepth 10000 in
theorem parse_purpose : statementParser pattern n m (purposeTokens ++ u :: rest) =
    .ok ([purposeTree], u :: rest) := by
  rfl

set_option maxRecDepth 10000 in
theorem parse_status : statementParser pattern n m (statusTokens ++ u :: rest) =
    .ok ([statusTree], u :: rest) := by
  rfl

set_option maxRecDepth 10000 in
theorem parse_mime : statementParser pattern n m (mimeTokens ++ u :: rest) =
    .ok ([mimeTree], u :: rest) := by
  rfl

set_option maxRecDepth 10000 in
theorem parse_field : statementParser pattern n m (fieldTokens ++ u :: rest) =
    .ok ([fieldTree], u :: rest) := by
  rfl

set_option maxRecDepth 10000 in
theorem parse_open : statementParser pattern n m (openTokens ++ u :: rest) =
    .ok ([openTree], u :: rest) := by
  rfl

theorem parse_pass : statementParser pattern n m (passTokens ++ u :: rest) =
    .ok ([passTree], u :: rest) := by
  rfl

end

end Frame

end ServerPages
