import CallFusion.Text.Trim

/-!
Addresses to listen at: a host, which may stand in brackets or be missing, a colon and a port.
-/
namespace CallFusion.Address

open Text

inductive AddressFault where
  | missingPort
  | tooManyColons
  | missingBracket
  | strayOpening
  | strayClosing
  | unknownPort (port : String)
  | invalidPort (port : String)
  deriving DecidableEq, Repr, Inhabited

def AddressFault.message (f : AddressFault) (address : String) : String :=
  match f with
  | missingPort => "address " ++ address ++ ": missing port in address"
  | tooManyColons => "address " ++ address ++ ": too many colons in address"
  | missingBracket => "address " ++ address ++ ": missing ']' in address"
  | strayOpening => "address " ++ address ++ ": unexpected '[' in address"
  | strayClosing => "address " ++ address ++ ": unexpected ']' in address"
  | unknownPort port => "lookup tcp/" ++ port ++ ": unknown port"
  | invalidPort port => "address " ++ port ++ ": invalid port"

def bracketedPort (cs : List Char) : Except AddressFault (List Char) :=
  let host := cs.takeWhile (· != ']')
  match cs.drop host.length with
  | [] => .error .missingBracket
  | _ :: ':' :: port =>
    if port.contains ':' then .error .tooManyColons
    else if host.contains '[' || port.contains '[' then .error .strayOpening
    else if port.contains ']' then .error .strayClosing
    else .ok port
  | _ => .error .missingPort

def port (address : String) : Except AddressFault (List Char) :=
  match address.toList with
  | '[' :: cs => if cs.contains ':' then bracketedPort cs else .error .missingPort
  | cs =>
    match (splitChar ':' address).length with
    | 0 | 1 => .error .missingPort
    | 2 =>
      if cs.contains '[' then .error .strayOpening
      else if cs.contains ']' then .error .strayClosing
      else .ok ((cs.dropWhile (· != ':')).drop 1)
    | _ => .error .tooManyColons

def knownPorts : List String := ["domain", "ftp", "ftps", "gopher", "http", "https", "imap2", "imap3", "imaps", "pop3",
  "pop3s", "smtp", "submissions", "ssh", "telnet"]

def problem? (address : String) : Option AddressFault :=
  if address.isEmpty then none
  else match port address with
    | .error f => some f
    | .ok digits =>
      let signed := match digits with
        | '-' :: ds | '+' :: ds => ds
        | ds => ds
      let text := String.ofList digits
      if signed.all Char.isDigit then
        let n := signed.foldl (fun n c => n * 10 + (c.toNat - 48)) 0
        if 65535 < n || (digits.head? == some '-' && n != 0) then some (.invalidPort text) else none
      else if knownPorts.contains (lower text) then none
      else some (.unknownPort text)

end CallFusion.Address
