import Mathlib.Data.List.Basic

/-! Data that the sender's and the receiver's views share (`types/transfer.ts`,
`types/ui.ts`), and the JavaScript they read paths with. -/
namespace AltSendme.Frontend

inductive PathType where
  | file
  | directory
  deriving DecidableEq, Repr

structure TransferMetadata where
  fileName : String
  fileSize : Nat
  duration : Nat
  startTime : Nat
  endTime : Nat
  downloadPath : Option String
  wasStopped : Bool
  pathType : Option PathType
  itemCount : Option Nat
  deriving DecidableEq, Repr

/-- The numbers a progress event carries; the others are computed from them. -/
structure TransferProgress where
  bytesTransferred : Nat
  totalBytes : Nat
  speedInt : Int
  deriving DecidableEq, Repr

structure AlertDialog where
  isOpen : Bool
  title : String
  description : String
  deriving DecidableEq, Repr

/-- JavaScript's truth of a string that may be null. -/
def truthy (text : Option String) : Bool := text.getD "" != ""

/-- What JavaScript's `trim` takes away: white space and line ends. -/
def isSpace (c : Char) : Bool :=
  [0x20, 0xA0, 0x1680, 0x2028, 0x2029, 0x202F, 0x205F, 0x3000, 0xFEFF].contains c.toNat ||
    (9 ≤ c.toNat && c.toNat ≤ 13) || (0x2000 ≤ c.toNat && c.toNat ≤ 0x200A)

def trim (text : String) : String :=
  String.ofList ((text.toList.dropWhile isSpace).reverse.dropWhile isSpace).reverse

/-- `path.split('/')` -/
def segments (path : String) : List String := (path.toList.splitOn '/').map String.ofList

end AltSendme.Frontend
