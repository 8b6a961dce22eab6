import Specimen.Format.Address
import Specimen.Format.Calendar
import Specimen.Format.Host
import Specimen.Format.Identifier
import Specimen.Primitive.Error
import Specimen.Primitive.Leaf

/-!
# Formats

The nine named forms of text, each with a draw and a test.
-/

namespace Specimen

inductive Format where
  | dateTime
  | date
  | time
  | email
  | uuid
  | uri
  | hostname
  | ipv4
  | ipv6
  deriving DecidableEq, Repr

namespace Format

def text : Format → String
  | .dateTime => "date-time"
  | .date => "date"
  | .time => "time"
  | .email => "email"
  | .uuid => "uuid"
  | .uri => "uri"
  | .hostname => "hostname"
  | .ipv4 => "ipv4"
  | .ipv6 => "ipv6"

def all : List Format :=
  [.dateTime, .date, .time, .email, .uuid, .uri, .hostname, .ipv4, .ipv6]

def ofText? (name : String) : Option Format :=
  all.find? fun format => format.text = name

@[simp] theorem ofText?_text (format : Format) : ofText? format.text = some format := by
  cases format <;> decide

def read (name : String) : Except PrimitiveError Format :=
  match ofText? name with
  | some format => .ok format
  | none => .error (.unknownFormat name)

def draw : Format → Draw (List Char)
  | .dateTime => do return Calendar.instantText (← Calendar.drawInstant)
  | .date => do return Calendar.dateText (Calendar.dateOf (← Calendar.drawInstant))
  | .time => do return Calendar.timeText (Calendar.timeOf (← Calendar.drawInstant))
  | .email => Host.drawMail
  | .uuid => do return Identifier.text (← Identifier.draw)
  | .uri => Host.drawUri
  | .hostname => Host.drawName
  | .ipv4 => do return Address.text4 (← Address.drawAddress4)
  | .ipv6 => do return Address.text6 (← Address.drawAddress6)

def accepts (format : Format) (cs : List Char) : Bool :=
  match format with
  | .dateTime => (Calendar.readInstant? cs).isSome
  | .date => (Calendar.readDate? cs).isSome
  | .time => (Calendar.readTime? cs).isSome
  | .email => Host.isMail cs
  | .uuid => (Identifier.read? cs).isSome
  | .uri => Host.isUri cs
  | .hostname => Host.isName cs
  | .ipv4 => (Address.read4? cs).isSome
  | .ipv6 => (Address.read6? cs).isSome

def leaf (format : Format) : Leaf where
  generate := ExceptT.lift do return .str (String.ofList (← format.draw))
  validate value := some (match value with
    | .str text => format.accepts text.toList
    | _ => false)

end Format

end Specimen
