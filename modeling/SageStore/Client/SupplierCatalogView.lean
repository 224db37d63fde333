import SageStore.Server.Repositories
import SageStore.Client.Qt

/-!
# The import of a supplier catalog

A catalog is a text file with one product of a supplier on a line, its cells parted by commas.
The text is what the stream reads from the file: decoded characters, a line feed at the end of a
line.
-/

namespace SageStore

/-- The simple case folding of Unicode, one character at a time. -/
structure CaseFolding where
  fold : Char → Char
  /-- White space has no case, and nothing folds to it. -/
  isSpaceChar_fold : ∀ c, Qt.isSpaceChar (fold c) = Qt.isSpaceChar c
  fold_ascii : ∀ c : Char, c.toNat < 128 → fold c = c.toLower

/-- `QString::compare` without regard to case finds no difference. -/
def CaseFolding.equals (folding : CaseFolding) (s t : List Char) : Bool :=
  s.map folding.fold = t.map folding.fold

deriving instance DecidableEq for SuppliersProductInfo

namespace SupplierCatalogView

/-- `QString::trimmed`, as documented: the white space of Unicode (`QChar::isSpace`) is removed from
both ends, and none within. -/
def trimmed (t : List Char) : List Char := Cells.strip Qt.isSpaceChar t

/-- `QString::toStdString`. -/
def toStdString (t : List Char) : Bytes := t.flatMap String.utf8EncodeChar

/-- The lines that `QTextStream::readLine` returns until the stream is at its end. As documented, a
line ends with `\n` or `\r\n`, and the last one need not; the `\r` stays on the line here, which is
trimmed next. -/
def readLines : List Char → List (List Char)
  | [] => []
  | '\n' :: text => [] :: readLines text
  | c :: text =>
    match readLines text with
    | [] => [[c]]
    | line :: lines => (c :: line) :: lines

/-- What the import has done: the calls of `createSupplierProduct`, the text of an error it
emits, the value it returns. -/
structure ImportResult where
  created : List SuppliersProductInfo
  error : Option String
  imported : Bool
deriving DecidableEq

/-- One turn of the loop: the calls so far, and their count as an `int`. -/
def importLine (folding : CaseFolding) (acc : List SuppliersProductInfo × ℤ)
    (line : List Char) : List SuppliersProductInfo × ℤ :=
  let line := trimmed line
  if line.isEmpty then acc
  else
    let columns := line.splitOn ','
    if columns.length < 3 then acc
    else if folding.equals (columns.getD 0 []) "supplierId".toList then acc
    else
      let supplierProduct : SuppliersProductInfo :=
        { id := []
          supplierID := toStdString (trimmed (columns.getD 0 []))
          productTypeId := toStdString (trimmed (columns.getD 1 []))
          code := toStdString (trimmed (columns.getD 2 [])) }
      (acc.1 ++ [supplierProduct], (acc.2 + 1).bmod (2 ^ 32))

/-- The import of a file; `none` is a file that cannot be opened. -/
def importCsvFile (folding : CaseFolding) (file : Option (List Char)) : ImportResult :=
  match file with
  | none => ⟨[], some "Unable to open CSV file.", false⟩
  | some text =>
    let acc := (readLines text).foldl (importLine folding) ([], 0)
    if acc.2 = 0 then
      ⟨acc.1, some "CSV file did not contain valid supplier catalog rows.", false⟩
    else ⟨acc.1, none, true⟩

end SupplierCatalogView

end SageStore
