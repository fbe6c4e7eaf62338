/-
# BorderSync.Tls.Pem -- certificate files as sequences of labelled sections

A file is a sequence of lines. A section begins with a line that carries its label between dashes
and ends with the line that names the same label again; what stands between is read as letters.
Lines outside sections, and sections with labels that are not known, are passed over. A new
beginning inside a section replaces its label.
-/
import BorderSync.Text.Utf8
import BorderSync.Tls.Base64

namespace BorderSync.Tls

/-- Why a file cannot be read. -/
inductive Pem.Fault where
  | missingEnd (label : List UInt8)
  | illegalStart (line : List UInt8)
  | letters (fault : Base64.Fault)
  | noItems
  deriving DecidableEq, Repr

/-- Octets as a list of numbers. -/
def showOctets (bytes : List UInt8) : String :=
  "[" ++ String.intercalate ", " (bytes.map fun b => toString b.toNat) ++ "]"

/-- The words for a fault. -/
def Pem.Fault.message : Pem.Fault → String
  | .missingEnd label => "missing section end marker: " ++ showOctets label
  | .illegalStart line => "illegal section start: " ++ showOctets line
  | .letters fault => "base64 decode error: " ++ fault.message
  | .noItems => "no items found"

namespace Pem

/-- What a section holds, as far as labels are known. -/
inductive Kind where
  | certificate
  | publicKey
  | rsaPrivateKey
  | privateKey
  | ecPrivateKey
  | revocationList
  | signingRequest
  | helloConfig
  deriving DecidableEq, Repr

/-- The octets of an ASCII text. -/
def ascii (s : String) : List UInt8 :=
  Text.Utf8.encode s.toList

/-- The labels that are known. -/
def labels : List (String × Kind) :=
  [("CERTIFICATE", .certificate), ("PUBLIC KEY", .publicKey),
   ("RSA PRIVATE KEY", .rsaPrivateKey), ("PRIVATE KEY", .privateKey),
   ("EC PRIVATE KEY", .ecPrivateKey), ("X509 CRL", .revocationList),
   ("CERTIFICATE REQUEST", .signingRequest), ("ECHCONFIG", .helloConfig)]

/-- The kind that a label stands for. -/
def kind? (label : List UInt8) : Option Kind :=
  (labels.find? fun l => ascii l.1 == label).map Prod.snd

/-- A section that was read. -/
structure Section where
  kind : Kind
  content : List UInt8
  deriving DecidableEq, Repr

/-- The lines of a file; each line feed and each carriage return ends one. -/
def lines : List UInt8 → List (List UInt8)
  | [] => []
  | b :: rest =>
    if b = 0x0a ∨ b = 0x0d then [] :: lines rest
    else
      match rest, lines rest with
      | [], _ => [[b]]
      | _ :: _, [] => [[b]]
      | _ :: _, l :: ls => (b :: l) :: ls

/-- What follows `lead`, if the line begins with it. -/
def after? : (lead line : List UInt8) → Option (List UInt8)
  | [], line => some line
  | _ :: _, [] => none
  | a :: lead, b :: line => if a = b then after? lead line else none

/-- The label that a line begins a section with: five dashes, spaces among them, stand at its
end. The outer `none` says that the line begins no section, the inner one that it does so badly. -/
def beginning? (line : List UInt8) : Option (Option (List UInt8)) :=
  match after? (ascii "-----BEGIN ") line with
  | none => none
  | some _ =>
    let tail := line.reverse.takeWhile fun b => b == 0x2d || b == 0x20
    if tail.count 0x2d = 5 then
      let spaces := (tail.reverse.takeWhile (· == 0x20)).length
      some (some ((line.take (line.length - tail.length + spaces)).drop 11))
    else some none

/-- The line ends the section with the given label. -/
def ends (label line : List UInt8) : Bool :=
  (after? (ascii "-----END " ++ label ++ ascii "-----") line).isSome

/-- Sections up to the first fault, and that fault. -/
structure Contents where
  sections : List Section
  fault : Option Fault
  deriving Repr

/-- Put a section in front. -/
def Contents.cons (s : Section) (c : Contents) : Contents :=
  { c with sections := s :: c.sections }

/-- Read lines; `label` is that of the section that is open, `letters` what it holds so far. -/
def scan (label : Option (List UInt8)) (letters : List UInt8) : List (List UInt8) → Contents
  | [] => ⟨[], label.map .missingEnd⟩
  | line :: rest =>
    match beginning? line with
    | some none => ⟨[], some (.illegalStart line)⟩
    | some (some l) => scan (some l) letters rest
    | none =>
      match label with
      | none => scan none letters rest
      | some l =>
        if ends l line then
          match kind? l with
          | none => scan none [] rest
          | some kind =>
            match Base64.decode letters with
            | .error fault => ⟨[], some (.letters fault)⟩
            | .ok content => (scan none [] rest).cons ⟨kind, content⟩
        else scan (some l) (letters ++ line) rest

/-- **Read a file.** -/
def read (file : List UInt8) : Contents :=
  scan none [] (lines file)

/-- **The certificates of a file**, one after the other; a fault of the file comes last. -/
def certificates (file : List UInt8) : List (Except Fault (List UInt8)) :=
  (((read file).sections.filter fun s => s.kind == .certificate).map fun s => .ok s.content)
    ++ (read file).fault.toList.map .error

/-- The forms of a private key. -/
inductive KeyForm where
  | rsa
  | ec
  | general
  deriving DecidableEq, Repr

/-- A private key as it stands in a file. -/
structure PrivateKey where
  form : KeyForm
  content : List UInt8
  deriving DecidableEq, Repr

/-- The private key that a section holds. -/
def Section.privateKey? (s : Section) : Option PrivateKey :=
  match s.kind with
  | .rsaPrivateKey => some ⟨.rsa, s.content⟩
  | .ecPrivateKey => some ⟨.ec, s.content⟩
  | .privateKey => some ⟨.general, s.content⟩
  | _ => none

/-- **The first private key** of a file; a fault matters only before it. -/
def privateKey (file : List UInt8) : Except Fault PrivateKey :=
  match (read file).sections.findSome? Section.privateKey? with
  | some key => .ok key
  | none => .error ((read file).fault.getD .noItems)

end Pem

end BorderSync.Tls
