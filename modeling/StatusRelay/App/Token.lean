import StatusRelay.Crypto.PrivateKey
import StatusRelay.Json.Writer
import StatusRelay.Time.Moment

namespace StatusRelay

/-- The token by which the App identifies itself for a short time: three claims, signed with the
App's key. The two times are whole seconds, so they say what the claims say. -/
structure AppToken where
  text : String
  issuedAt : Moment
  expiresAt : Moment
deriving DecidableEq, Repr

namespace AppToken

abbrev Bytes := List UInt8

/-- Five minutes leave a wide margin below the longest life that is accepted. -/
def lifetime : Int := 300

def header : Json.Value := .obj [("alg", .str "RS256"), ("typ", .str "JWT")]

def claims (issuer : Json.Value) (issuedAt expiresAt : Moment) : Json.Value :=
  .obj [("iss", issuer), ("iat", .int issuedAt.unixSeconds), ("exp", .int expiresAt.unixSeconds)]

def asciiBytes (s : String) : Bytes := s.toList.map fun c ↦ UInt8.ofNat c.toNat

def part (text : String) : List Char := Base64.encode Base64.url (asciiBytes text)

def signedPart (text : String) : List Char := part (Json.write .compact header) ++ '.' :: part text

def signFailure : Rsa.SignFault → Failure
  | .refused reason => .signing reason
  | .broken => .signerBroken

/-- A token for the issuer with its two times, signed by `sign` with the key in `pem`. The time at
which it expires may be out of range. -/
def issue (sign : Rsa.PrivateKey → Bytes → Except Rsa.SignFault Bytes) (issuer : Json.Value)
    (pem : String) (issuedAt : Moment) (expiresAt? : Option Moment) : Except Failure AppToken :=
  match expiresAt? with
  | none => .error .timeOutOfRange
  | some expiresAt =>
    match PrivateKey.ofPem pem with
    | .error fault => .error (.keyParse fault)
    | .ok key =>
      match Json.dump .standard .compact (claims issuer issuedAt expiresAt) with
      | .error fault => .error (.unwritten fault)
      | .ok text =>
        let body := signedPart text
        match sign key (asciiBytes (String.ofList body)) with
        | .error fault => .error (signFailure fault)
        | .ok signature =>
          .ok ⟨String.ofList (body ++ '.' :: Base64.encode Base64.url signature), issuedAt,
            expiresAt⟩

def createWith (sign : Rsa.PrivateKey → Bytes → Except Rsa.SignFault Bytes)
    (issuer : Json.Value) (pem : String) (now : Moment) : Except Failure AppToken :=
  issue sign issuer pem now.truncate (now.truncate.addSeconds? lifetime)

def create (issuer : Json.Value) (pem : String) (now : Moment) : Except Failure AppToken :=
  createWith Rsa.sign issuer pem now

def now (clock : Moment) : Except Failure Moment :=
  match clock.toUtc? with
  | some m => .ok m
  | none => .error .timeOutOfRange

end AppToken
end StatusRelay
