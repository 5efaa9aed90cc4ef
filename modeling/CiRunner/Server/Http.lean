import CiRunner.Text.Blank
import CiRunner.Text.Hex
import CiRunner.Text.Utf8
import CiRunner.Value.Basic

/-!
# Requests and responses

What a client sends and what it is answered, as far as the receiver looks at it.
-/

namespace CiRunner

open CiRunner.Text

/-- What a client sends. -/
structure Request where
  /-- The method. -/
  method : String
  /-- The path, maybe with a query. -/
  path : String
  /-- The headers. -/
  headers : List (String × String) := []
  /-- The body. -/
  body : List UInt8 := []
  deriving Repr, Inhabited

namespace Request

/-- A name in lower case. -/
def lowerCase (s : String) : String := String.ofList (s.toList.map Char.toLower)

/-- The value of the first header of a name, whatever the case of its letters. -/
def header? (q : Request) (name : String) : Option String :=
  (q.headers.find? fun h => lowerCase h.1 == name).map (·.2)

/-- The bytes of a text in which a percent sign and two digits stand for a byte. -/
def percentDecode : List Char → List UInt8
  | [] => []
  | '%' :: a :: b :: rest =>
    match bytesOfHex? [a, b] with
    | some bytes => bytes ++ percentDecode rest
    | none => '%'.toUInt8 :: percentDecode (a :: b :: rest)
  | c :: rest => Utf8.encode (String.ofList [c]) ++ percentDecode rest

/-- The names along the path, without the query. -/
def parts (q : Request) : List String :=
  let path := percentDecode (cutAt '?' q.path.toList).1
  (splitAtChar '/' [] (Utf8.decodeLossy path)).map String.ofList

end Request

/-- The body of a response. -/
inductive Body where
  /-- A value in JSON. -/
  | json (v : Value)
  /-- A plain text. -/
  | text (s : String)
  deriving Repr

/-- What a client is answered. -/
structure Response where
  /-- The status code. -/
  status : Nat
  /-- The body. -/
  body : Body
  deriving Repr

namespace Response

/-- A value. -/
def ok (v : Value) : Response := ⟨200, .json v⟩

/-- A refusal with its reason. -/
def refusal (status : Nat) (detail : String) : Response :=
  ⟨status, .json (.map [(.text "detail", .text detail)])⟩

/-- No such path. -/
def notFound : Response := refusal 404 "Not Found"

/-- The path does not know the method. -/
def methodNotAllowed : Response := refusal 405 "Method Not Allowed"

/-- The receiver broke off. -/
def internalError : Response := ⟨500, .text "Internal Server Error"⟩

end Response

end CiRunner
