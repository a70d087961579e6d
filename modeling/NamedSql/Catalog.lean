import NamedSql.Template
import NamedSql.Text.Blank
import NamedSql.Text.Utf8

/-!
# Catalogs of named statements

A resource is a text of blocks between blank lines. A block is a line `#name` and the statement below
it, with comments from `--` to the end of a line. The statement is kept without comments and with its
white space squeezed, except within literals. A resource is taken in as a whole or not at all.
-/

namespace NamedSql

open Text

namespace Catalog

/-! ### Statement texts -/

/-- A line up to a comment that does not stand in a literal of the line. -/
def cutComment (quoted : Bool) : List Char → List Char
  | [] => []
  | '-' :: '-' :: s => if quoted then '-' :: cutComment quoted ('-' :: s) else []
  | c :: s => c :: cutComment (if c == '\'' then !quoted else quoted) s

/-- Squeezes the white space outside literals: each run becomes one space, and none in front of the
text (`started` tells whether something stands before) nor at its end. A run that was met and not yet
written is `pending`. -/
def squeezeFrom (quoted pending started : Bool) : List Char → List Char
  | [] => []
  | c :: s =>
    if !quoted && isBlank c then squeezeFrom quoted started started s
    else
      let quoted := if c == '\'' then !quoted else quoted
      if pending then ' ' :: c :: squeezeFrom quoted false true s
      else c :: squeezeFrom quoted false true s

def squeeze (s : List Char) : List Char :=
  squeezeFrom false false false s

/-! ### Blocks -/

/-- The characters of a statement's name. -/
def isNameChar (c : Char) : Bool :=
  c.isAlphanum || c == '_' || c == '.' || c == '-'

/-- The name that a line declares. -/
def header? (line : List Char) : Option (List Char) :=
  match trim line with
  | '#' :: s =>
    let name := trimStart s
    if !name.isEmpty && name.all isNameChar then some name else none
  | _ => none

/-- The lines of a block and the number of the first one. -/
structure Block where
  line : Nat
  lines : List (List Char)
deriving Repr

/-- Whether a line is nothing but a comment, which does not end a block. -/
def isComment (line : List Char) : Bool :=
  ['-', '-'].isPrefixOf (trimStart line)

/-- Cuts lines into blocks. The first line has the number `n`, and `current` holds the lines of the
block that it may continue, the last one first. -/
def cutBlocks (n : Nat) (current : Option (Nat × List (List Char))) :
    List (List Char) → List Block
  | [] =>
    match current with
    | none => []
    | some (line, block) => [⟨line, block.reverse⟩]
  | l :: rest =>
    if isBlankLine l then
      match current with
      | none => cutBlocks (n + 1) none rest
      | some (line, block) => ⟨line, block.reverse⟩ :: cutBlocks (n + 1) none rest
    else if isComment l then cutBlocks (n + 1) current rest
    else
      match current with
      | none => cutBlocks (n + 1) (some (n, [l])) rest
      | some (line, block) => cutBlocks (n + 1) (some (line, l :: block)) rest

def blocks (s : List Char) : List Block :=
  cutBlocks 1 none (lines s)

/-- The statement text below a header. -/
def statementText (body : List (List Char)) : List Char :=
  squeeze (List.intercalate ['\n'] (body.map (cutComment false)))

/-- The name and the text of a block. -/
def readBlock (resource : String) (b : Block) : Except CatalogFault (String × List Char) :=
  match b.lines with
  | [] => .error (.noHeader resource b.line)
  | first :: body =>
    match header? first with
    | none => .error (.noHeader resource b.line)
    | some name =>
      let text := statementText body
      if text.isEmpty then .error (.noText resource b.line (String.ofList name))
      else .ok (String.ofList name, text)

end Catalog

/-- The statements of a resource by name. -/
abbrev Resource := List (String × Template)

/-- Resources by name, and the escape character of their templates. -/
structure Catalog where
  escape : Char
  resources : List (String × Resource)
deriving Repr

namespace Catalog

def empty (escape : Char) : Catalog := ⟨escape, []⟩

/-- The templates of statements, after those in `found`; no name may come twice. -/
def readStatements (escape : Char) (resource : String) (found : Resource) :
    List (String × List Char) → Except Failure Resource
  | [] => .ok found
  | (name, text) :: rest =>
    if found.any (·.1 == name) then .error (.catalog (.duplicate name resource))
    else
      match Template.parse escape (String.ofList text) with
      | .error e => .error e
      | .ok t => readStatements escape resource (found ++ [(name, t)]) rest

/-- The statements of a resource. All blocks are read before any statement is parsed. -/
def readResource (escape : Char) (resource text : String) : Except Failure Resource :=
  match (blocks text.toList).mapM (readBlock resource) with
  | .error fault => .error (.catalog fault)
  | .ok statements => readStatements escape resource [] statements

/-- Takes in a resource, in place of one with the same name; gives the number of its statements. -/
def load (c : Catalog) (resource text : String) : Except Failure (Nat × Catalog) :=
  (readResource c.escape resource text).map fun statements =>
    (statements.length,
      { c with resources := (resource, statements) :: c.resources.filter (·.1 != resource) })

def template (c : Catalog) (resource statement : String) : Except Failure Template :=
  match c.resources.lookup resource with
  | none => .error (.catalog (.unknownResource resource))
  | some statements =>
    match statements.lookup statement with
    | none => .error (.catalog (.unknownStatement statement resource))
    | some t => .ok t

/-- The text of a statement as it was parsed. -/
def statementSql (c : Catalog) (resource statement : String) : Except Failure String :=
  (c.template resource statement).map (·.source)

/-- The name of a statement among the statements of all resources. -/
def fullName (resource statement : String) : String :=
  resource ++ "#" ++ statement

/-- The name of the file at the end of a path, without its last extension. A path may end in `..`,
which names no file; a name that only starts with a point has no extension. -/
def resourceOfPath? (path : String) : Option String :=
  let parts := (path.toList.splitBy fun a b => a != '/' && b != '/').filter
    fun part => part != ['/'] && part != ['.']
  match parts.getLast? with
  | none => none
  | some name =>
    if name == ['.', '.'] then none
    else
      let stem := (name.reverse.dropWhile (· != '.')).drop 1
      some (String.ofList (if stem.isEmpty then name else stem.reverse))

/-- Takes in a file with the given content, if it could be read, as the resource of its name. -/
def loadFile (c : Catalog) (path : String) (content : Option (List UInt8)) :
    Except Failure (Nat × Catalog) :=
  match resourceOfPath? path with
  | none => .error (.catalog (.noResourceName path))
  | some resource =>
    match content.bind ofUtf8? with
    | none => .error (.catalog (.unreadable path))
    | some text => c.load resource text

end Catalog

end NamedSql
