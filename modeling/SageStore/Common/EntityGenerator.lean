import SageStore.Foundation.Cells
import SageStore.Foundation.Regex

/-!
# The entity generator

`generate_entities.py` reads the schema of the database with two regular expressions, one for the
`CREATE TABLE` statements of the script and one for the name at the front of a line, and writes
for every table a structure and the functions that turn it into JSON and back. Texts are lists
of characters, as Python has them once a file is decoded and its line ends are `\n`.
-/

namespace SageStore

open Regex

namespace Python

/-- The white space of `\s` and of `str.strip`. -/
def isSpace (c : Char) : Bool :=
  (9 ≤ c.toNat && c.toNat ≤ 13) || (28 ≤ c.toNat && c.toNat ≤ 31) ||
    (0x2000 ≤ c.toNat && c.toNat ≤ 0x200A) ||
    c.toNat ∈ [0x20, 0x85, 0xA0, 0x1680, 0x2028, 0x2029, 0x202F, 0x205F, 0x3000]

/-- The ends of lines of `str.splitlines`. -/
def isLineBreak (c : Char) : Bool :=
  (10 ≤ c.toNat && c.toNat ≤ 13) || c.toNat ∈ [28, 29, 30, 0x85, 0x2028, 0x2029]

/-- The characters of words in Unicode, `\w`, and the capital letters of texts. -/
structure Unicode where
  isWord : Char → Bool
  isWord_ascii : ∀ c : Char, c.toNat < 128 → isWord c = (c.isAlphanum || c == '_')
  isWord_of_isSpace : ∀ c, isSpace c = true → isWord c = false
  upper : List Char → List Char

/-- `str.strip`. -/
def strip (t : List Char) : List Char := Cells.strip isSpace t

/-- `str.splitlines`. -/
def splitlines : List Char → List (List Char)
  | [] => []
  | '\r' :: '\n' :: t => [] :: splitlines t
  | c :: t =>
    if isLineBreak c then [] :: splitlines t
    else
      match splitlines t with
      | [] => [[c]]
      | line :: lines => (c :: line) :: lines

/-- An assignment to a key of a dictionary, whose keys stay in the order of their first
assignments. -/
def assign {κ ν : Type} [DecidableEq κ] (key : κ) (value : ν) : List (κ × ν) → List (κ × ν)
  | [] => [(key, value)]
  | item :: items =>
    if item.1 = key then (key, value) :: items else item :: assign key value items

end Python

namespace EntityGenerator

open Python

variable (u : Unicode)

/-- `CREATE TABLE (\w+)\s*\((.*?)\);`, in which the dot stands for line ends too. -/
def tablePattern : Pattern Char :=
  .seq (.literal "CREATE TABLE ".toList) <| .seq (.group (.plus u.isWord)) <|
    .seq (.many isSpace) <| .seq (.literal "(".toList) <|
    .seq (.group (.manyLazy fun _ => true)) (.literal ");".toList)

/-- `^\s*(\w+)\b.*?(?:,|$)`. -/
def fieldPattern : Pattern Char :=
  .seq (.lineStart (· = '\n')) <| .seq (.many isSpace) <| .seq (.group (.plus u.isWord)) <|
    .seq (.boundary u.isWord) <| .seq (.manyLazy (· ≠ '\n')) <|
    .alt (.literal ",".toList) (.lineEnd (· = '\n'))

/-- The names of the fields that are read off the text between the brackets of a table. -/
def fieldNames (fields : List Char) : List (List Char) :=
  let fieldLines := (splitlines fields).filter fun line =>
    !"FOREIGN KEY".toList.isPrefixOf (strip line)
  fieldLines.filterMap fun line =>
    (run (fieldPattern u) none line).head?.bind fun m => m.groups[0]?

/-- The table of a match, by the groups of which it is given, is assigned its field names. -/
def readTable (tables : List (List Char × List (List Char))) (groups : List (List Char)) :
    List (List Char × List (List Char)) :=
  match groups with
  | [table, fields] => assign table (fieldNames u fields) tables
  | _ => tables

def parseSqlFile (content : List Char) : List (List Char × List (List Char)) :=
  ((findall (tablePattern u) none 0 content).map Match.groups).foldl (readTable u) []

/-! ### What is generated -/

/-- `re.sub(r'(.)([A-Z][a-z]+)', r'\1_\2', name)`, and the same between a small letter or a digit
and a capital letter, in capital letters. -/
def camelToSnake (name : List Char) : List Char :=
  let underscored (m : Match Char) : List Char :=
    m.groups.getD 0 [] ++ "_".toList ++ m.groups.getD 1 []
  let s1 := sub (.seq (.group (.one (· ≠ '\n')))
    (.group (.seq (.one Char.isUpper) (.plus Char.isLower)))) underscored none 0 name
  u.upper (sub (.seq (.group (.one fun c => c.isLower || c.isDigit))
    (.group (.one Char.isUpper))) underscored none 0 s1)

/-- The lines that the generator writes for the fields of a table: the constants and the members
of the structure, and the two halves of its JSON codec. -/
structure GeneratedEntity where
  structName : List Char
  keyDefinitions : List (List Char)
  fieldDefinitions : List (List Char)
  jsonSerialization : List (List Char)
  jsonDeserialization : List (List Char)
deriving DecidableEq

def generateEntity (table : List Char × List (List Char)) : GeneratedEntity where
  structName := table.1
  keyDefinitions := table.2.map fun field => "    static constexpr const char *".toList ++
    camelToSnake u field ++ "_KEY = \"".toList ++ field ++ "\";".toList
  fieldDefinitions := table.2.map fun field =>
    "    std::string ".toList ++ field ++ "\x7b\x7d;".toList
  jsonSerialization := table.2.map fun field => "\x7b".toList ++ table.1 ++ "::".toList ++
    camelToSnake u field ++ "_KEY, u.".toList ++ field ++ "\x7d".toList
  jsonDeserialization := table.2.map fun field => "j.at(".toList ++ table.1 ++ "::".toList ++
    camelToSnake u field ++ "_KEY).get_to(u.".toList ++ field ++ ");".toList

def generateEntities (tables : List (List Char × List (List Char))) : List GeneratedEntity :=
  tables.map (generateEntity u)

end EntityGenerator

end SageStore
