import MujinClient.HostNames
import MujinClient.JsonWriter
import MujinClient.RoundTrip

/-! What a client knows about its controller: read from a URL and printed as one, saved as JSON and
loaded from it. -/
namespace MujinClient

open Loading

namespace ControllerClientInfo

abbrev Port := IntFormat.Value ⟨16, false⟩

/-- What the characters add up to at their decimal places, digits or not. -/
def placeValue : Text → Int
  | [] => 0
  | c :: port => (charValue c - charValue (byte '0')) * 10 ^ port.length + placeValue port

theorem charValue_digit (digit : isDigit b = true) : charValue b - charValue (byte '0') = (b.val - 48 : Nat) := by
  obtain ⟨low, high⟩ := (isDigit_iff b).mp digit
  have zero : charValue (byte '0') = 48 := rfl
  rw [charValue, if_pos (by omega), zero]
  omega

theorem foldl_eq (n : Int) (port : Text) : port.foldl (fun httpPort c =>
    IntFormat.convert ⟨16, false⟩ (httpPort.val * 10 + (charValue c - charValue (byte '0'))))
      (IntFormat.convert _ n) =
      IntFormat.convert ⟨16, false⟩ (n * 10 ^ port.length + placeValue port) := by
  induction port generalizing n with
  | nil => simp [placeValue]
  | cons c port ih =>
    have step : IntFormat.convert ⟨16, false⟩
        ((IntFormat.convert ⟨16, false⟩ n).val * 10 + (charValue c - charValue (byte '0'))) =
        IntFormat.convert ⟨16, false⟩ (n * 10 + (charValue c - charValue (byte '0'))) := by
      refine Subtype.ext (IntFormat.wrap_congr ⟨16, false⟩ ?_)
      have wrapped : (IntFormat.convert ⟨16, false⟩ n).val = n % 65536 := rfl
      rw [wrapped]
      show _ % 65536 = _ % 65536
      omega
    have places : (n * 10 + (charValue c - charValue (byte '0'))) * 10 ^ port.length + placeValue port =
        n * 10 ^ (c :: port).length + placeValue (c :: port) := by
      rw [placeValue, List.length_cons]
      ring
    rw [List.foldl_cons, step, ih, places]

/-- The port that is read is what the characters add up to, modulo its size. -/
theorem parsePort_places (port : Text) : (parsePort port).val = placeValue port % 65536 := by
  have loop := foldl_eq 0 port
  rw [zero_mul, zero_add] at loop
  rw [parsePort, loop]
  rfl

theorem placeValue_append (s t : Text) : placeValue (s ++ t) = placeValue s * 10 ^ t.length + placeValue t := by
  induction s with
  | nil => simp [placeValue]
  | cons c s ih =>
    rw [List.cons_append, placeValue, placeValue, ih, List.length_append]
    ring

theorem placeValue_digits {port : Text} (digits : ∀ b ∈ port, isDigit b = true) :
    placeValue port = digitsValue port := by
  induction port using List.reverseRecOn with
  | nil => rfl
  | append_singleton port c ih =>
    have front := ih fun b inside => digits b (List.mem_append_left _ inside)
    have last := charValue_digit (digits c (by simp))
    rw [placeValue_append, digitsValue_append, front, placeValue, last]
    simp only [placeValue, List.length_singleton, List.length_nil]
    push_cast
    ring

theorem parsePort_small {port : Text} (digits : ∀ b ∈ port, isDigit b = true) (small : digitsValue port ≤ 65535) :
    (parsePort port).val = digitsValue port := by
  rw [parsePort_places, placeValue_digits digits]
  omega

theorem parsePort_natText (port : Port) : parsePort (natText port.val.toNat) = port := by
  have range : 0 ≤ port.val ∧ port.val < 65536 := by
    have holds := port.property
    simpa [IntFormat.Holds] using holds
  have bound : digitsValue (natText port.val.toNat) ≤ 65535 := by
    rw [digitsValue_natText]
    omega
  refine Subtype.ext ?_
  rw [parsePort_small (natText_digits _) bound, digitsValue_natText]
  omega

def portPart : Option Text → Text
  | none => []
  | some port => byte ':' :: port

variable {user password host path : Text} {port : Option Text} {clientInfo : ControllerClientInfo}

theorem slash_portPart (digits : ∀ p ∈ port, ∀ b ∈ p, isDigit b = true) {b : Byte}
    (other : b = byte '/' ∨ b = byte '@') : b ∉ portPart port := by
  cases port with
  | none => simp [portPart]
  | some p =>
    intro inside
    rcases List.mem_cons.mp inside with same | digit
    · rcases other with rfl | rfl <;> exact absurd same (by decide)
    · have is := digits p rfl b digit
      rcases other with rfl | rfl <;> exact absurd is (by decide)

theorem nulFree_portPart (digits : ∀ p ∈ port, ∀ b ∈ p, isDigit b = true) : NulFree (portPart port) := by
  cases port with
  | none => exact List.not_mem_nil
  | some p => exact nulFree_cons.mpr ⟨by decide, fun zero => absurd (digits p rfl 0 zero) (by decide)⟩

/-- A host and what follows it. -/
theorem parseHost_parts (clientInfo : ControllerClientInfo) (plain : byte ':' ∉ host ∧ byte '/' ∉ host)
    (digits : ∀ p ∈ port, ∀ b ∈ p, isDigit b = true) (slash : path = [] ∨ path.head? = some (byte '/')) :
    parseHost clientInfo (host ++ portPart port ++ path) =
      { clientInfo with host := host, httpPort := (port.map parsePort).getD clientInfo.httpPort } := by
  have clean : byte '/' ∉ host ++ portPart port := fun inside =>
    (List.mem_append.mp inside).elim plain.2 (slash_portPart digits (.inl rfl))
  unfold parseHost
  rw [upTo_path clean slash]
  cases port with
  | none => simp [portPart, plain.1]
  | some port => simp [portPart, upTo_append plain.1, behind_append plain.1]

/-- In front of the host stands an `@` or not. -/
theorem parseAuthority_host (plain : byte ':' ∉ host ∧ byte '/' ∉ host ∧ byte '@' ∉ host)
    (digits : ∀ p ∈ port, ∀ b ∈ p, isDigit b = true) (slash : path = [] ∨ path.head? = some (byte '/')) :
    parseAuthority (host ++ portPart port ++ path) = .ok (parseHost initial (host ++ portPart port ++ path)) := by
  have clean : byte '/' ∉ host ++ portPart port := fun inside =>
    (List.mem_append.mp inside).elim plain.2.1 (slash_portPart digits (.inl rfl))
  have none : byte '@' ∉ host ++ portPart port := fun inside =>
    (List.mem_append.mp inside).elim plain.2.2 (slash_portPart digits (.inr rfl))
  unfold parseAuthority
  rw [upTo_path clean slash, if_neg none]

theorem at_upTo {rest : Text} (plain : byte '/' ∉ user) :
    byte '@' ∈ upTo (byte '/') (user ++ byte '@' :: rest) := by
  have apart : byte '@' ≠ byte '/' := by decide
  rw [upTo_append plain, List.mem_append]
  exact .inr (by simp [upTo, apart])

theorem parseAuthority_password {rest : Text} (userPlain : byte ':' ∉ user ∧ byte '/' ∉ user ∧ byte '@' ∉ user)
    (passwordPlain : byte '/' ∉ password ∧ byte '@' ∉ password) :
    parseAuthority (user ++ byte ':' :: password ++ byte '@' :: rest) =
      .ok (parseHost { initial with username := user, password := password } rest) := by
  have apart : byte '/' ≠ byte ':' ∧ byte '@' ≠ byte ':' := by decide
  have slash : byte '/' ∉ user ++ byte ':' :: password := by simp [userPlain.2.1, passwordPlain.1, apart.1]
  have noAt : byte '@' ∉ user ++ byte ':' :: password := by simp [userPlain.2.2, passwordPlain.2, apart.2]
  unfold parseAuthority
  rw [if_pos (at_upTo slash)]
  simp only [upTo_append noAt, upTo_cons, List.append_nil, behind_append noAt, behind_cons,
    upTo_append userPlain.1,
    behind_append userPlain.1]
  simp

theorem parseAuthority_user {rest : Text} (userPlain : byte ':' ∉ user ∧ byte '/' ∉ user ∧ byte '@' ∉ user) :
    parseAuthority (user ++ byte '@' :: rest) =
      if byte ':' ∈ rest then .error .standard else .ok (parseHost { initial with username := user } rest) := by
  have apart : byte ':' ≠ byte '@' := by decide
  unfold parseAuthority
  rw [if_pos (at_upTo userPlain.2.1)]
  simp only [upTo_append userPlain.2.2, upTo_cons, List.append_nil, behind_append userPlain.2.2, behind_cons]
  simp [userPlain.1, apart]

/-- `_ParseClientInfoFromURL` into an info, of which `Reset` leaves the user agent. -/
def parseClientInfoFromURL (url : Text) (clientInfo : ControllerClientInfo) : Except Thrown ControllerClientInfo :=
  (parseURL (cString url)).map fun parsed => { parsed with userAgent := clientInfo.userAgent }

theorem parseURL_scheme {scheme rest : Text} (plain : byte ':' ∉ scheme) :
    parseURL (scheme ++ colonSlashSlash ++ rest) = parseAuthority rest := by
  have found : behindScheme (colonSlashSlash ++ rest) = some rest := by simp [behindScheme, colonSlashSlash]
  rw [parseURL, List.append_assoc, behindScheme_append plain, found]

end ControllerClientInfo

/-- `http[s]://[username[:password]@]hostname[:port][/path]` -/
structure DocumentedUrl where
  secure : Bool
  userinfo : Option (Text × Option Text)
  host : Text
  port : Option Text
  /-- Empty or from its slash on. -/
  path : Text
  user_plain : ∀ u ∈ userinfo, u.1 ≠ [] ∧ byte ':' ∉ u.1 ∧ byte '/' ∉ u.1 ∧ byte '@' ∉ u.1
  password_plain : ∀ u ∈ userinfo, ∀ p ∈ u.2, byte '/' ∉ p ∧ byte '@' ∉ p
  host_plain : host ≠ [] ∧ byte ':' ∉ host ∧ byte '/' ∉ host ∧ byte '@' ∉ host
  port_number : ∀ p ∈ port, p ≠ [] ∧ (∀ b ∈ p, isDigit b = true) ∧ digitsValue p ≤ 65535
  path_slash : path = [] ∨ path.head? = some (byte '/')
  nulFree : NulFree path ∧ NulFree host ∧ ∀ u ∈ userinfo, NulFree u.1 ∧ ∀ p ∈ u.2, NulFree p

namespace DocumentedUrl

def userinfoPart : Option (Text × Option Text) → Text
  | none => []
  | some (user, none) => user ++ [byte '@']
  | some (user, some password) => user ++ byte ':' :: password ++ [byte '@']

def text (u : DocumentedUrl) : Text :=
  lit (if u.secure then "https" else "http") ++ colonSlashSlash ++
    (userinfoPart u.userinfo ++ (u.host ++ ControllerClientInfo.portPart u.port ++ u.path))

/-- The components of the URL end up in the info. -/
def Parses (u : DocumentedUrl) (clientInfo : ControllerClientInfo) : Prop :=
  ∃ parsed, ControllerClientInfo.parseClientInfoFromURL u.text clientInfo = .ok parsed ∧
    parsed.username = (u.userinfo.map Prod.fst).getD [] ∧ parsed.password = (u.userinfo.bind Prod.snd).getD [] ∧
    parsed.host = u.host ∧ parsed.httpPort.val = (u.port.map digitsValue).getD 0

/-- Behind a user name without a password there is no colon. -/
def ColonFree (u : DocumentedUrl) : Prop :=
  ∀ user, u.userinfo = some (user, none) → u.port = none ∧ byte ':' ∉ u.path

theorem nulFree_text (u : DocumentedUrl) : NulFree u.text := by
  obtain ⟨path, host, userinfo⟩ := u.nulFree
  have user : NulFree (userinfoPart u.userinfo) := by
    unfold userinfoPart
    split
    · simp [NulFree]
    · rename_i known
      exact nulFree_append.mpr ⟨(userinfo _ known).1, by decide⟩
    · rename_i known
      have both := userinfo _ known
      exact nulFree_append.mpr ⟨nulFree_append.mpr ⟨both.1, nulFree_cons.mpr ⟨by decide, both.2 _ rfl⟩⟩, by decide⟩
  have port := ControllerClientInfo.nulFree_portPart fun p known => (u.port_number p known).2.1
  have scheme : NulFree (lit (if u.secure then "https" else "http")) := by cases u.secure <;> decide
  exact nulFree_append.mpr ⟨nulFree_append.mpr ⟨scheme, by decide⟩,
    nulFree_append.mpr ⟨user, nulFree_append.mpr ⟨nulFree_append.mpr ⟨host, port⟩, path⟩⟩⟩

theorem parse_text (u : DocumentedUrl) (clientInfo : ControllerClientInfo) :
    ControllerClientInfo.parseClientInfoFromURL u.text clientInfo =
      (ControllerClientInfo.parseAuthority
        (userinfoPart u.userinfo ++ (u.host ++ ControllerClientInfo.portPart u.port ++ u.path))).map
        fun parsed => { parsed with userAgent := clientInfo.userAgent } := by
  have scheme : byte ':' ∉ lit (if u.secure then "https" else "http") := by cases u.secure <;> decide
  rw [ControllerClientInfo.parseClientInfoFromURL, cString_of_nulFree _ u.nulFree_text, text,
    ControllerClientInfo.parseURL_scheme scheme]

theorem port_read (u : DocumentedUrl) :
    ((u.port.map ControllerClientInfo.parsePort).getD ControllerClientInfo.initial.httpPort).val =
    (u.port.map digitsValue).getD 0 := by
  cases known : u.port with
  | none => rfl
  | some port =>
    obtain ⟨-, digits, small⟩ := u.port_number port known
    exact ControllerClientInfo.parsePort_small digits small

/-- Exactly the URLs with a user name alone and a colon behind it are not read: the colon is taken for
the one of a password. -/
theorem parses_iff (u : DocumentedUrl) (clientInfo : ControllerClientInfo) :
    u.Parses clientInfo ↔ u.ColonFree := by
  have hostPlain : byte ':' ∉ u.host ∧ byte '/' ∉ u.host ∧ byte '@' ∉ u.host := u.host_plain.2
  have digits : ∀ p ∈ u.port, ∀ b ∈ p, isDigit b = true := fun p known => (u.port_number p known).2.1
  have read :=
    fun info => ControllerClientInfo.parseHost_parts info ⟨hostPlain.1, hostPlain.2.1⟩ digits u.path_slash
  rw [Parses, parse_text]
  cases known : u.userinfo with
  | none =>
    rw [userinfoPart, List.nil_append, ControllerClientInfo.parseAuthority_host hostPlain digits
      u.path_slash, read]
    exact iff_of_true ⟨_, rfl, rfl, rfl, rfl, u.port_read⟩ fun user impossible => by simp [known] at impossible
  | some userinfo =>
    obtain ⟨user, password⟩ := userinfo
    obtain ⟨-, userPlain⟩ := u.user_plain _ known
    cases password with
    | some password =>
      rw [userinfoPart, List.append_assoc, List.singleton_append,
        ControllerClientInfo.parseAuthority_password userPlain (u.password_plain _ known _ rfl), read]
      exact iff_of_true ⟨_, rfl, rfl, rfl, rfl, u.port_read⟩ fun user impossible => by simp [known] at impossible
    | none =>
      have colon : byte ':' ∈ u.host ++ ControllerClientInfo.portPart u.port ++ u.path ↔
          ¬(u.port = none ∧ byte ':' ∉ u.path) := by
        cases u.port <;> simp [ControllerClientInfo.portPart, hostPlain.1]
      have free : u.ColonFree ↔ u.port = none ∧ byte ':' ∉ u.path :=
        ⟨fun each => each user known, fun both _ _ => both⟩
      rw [free, userinfoPart, List.append_assoc, List.singleton_append,
        ControllerClientInfo.parseAuthority_user userPlain]
      by_cases colonFree : u.port = none ∧ byte ':' ∉ u.path
      · rw [if_neg (mt colon.mp (not_not.mpr colonFree)), read]
        exact iff_of_true ⟨_, rfl, rfl, rfl, rfl, u.port_read⟩ colonFree
      · rw [if_pos (colon.mpr colonFree)]
        refine iff_of_false ?_ colonFree
        rintro ⟨parsed, impossible, -⟩
        cases impossible

theorem no_path : ([] : Text) = [] ∨ ([] : Text).head? = some (byte '/') := .inl rfl

/-- `http://u@h:80` -/
def userAtPort : DocumentedUrl where
  secure := false
  userinfo := some ([byte 'u'], none)
  host := [byte 'h']
  port := some [byte '8', byte '0']
  path := []
  user_plain := by simp [byte]
  password_plain := by simp
  host_plain := by decide
  port_number := by simp [isDigit, byte, digitsValue]
  path_slash := no_path
  nulFree := by simp [NulFree, byte]

/-- The length of the password is negative. -/
theorem userAtPort_refused : ¬∀ (u : DocumentedUrl) (clientInfo : ControllerClientInfo), u.Parses clientInfo := by
  intro each
  obtain ⟨parsed, ran, -⟩ := each userAtPort .initial
  rw [parse_text] at ran
  cases ran

end DocumentedUrl

namespace ControllerClientInfo

/-- `GetURL`. `ResolveIpFromHostIfUnique` finds an empty text for a host without a unique address. -/
def getURL (resolveIpFromHostIfUnique : Text → Text) (clientInfo : ControllerClientInfo)
    (bIncludeNamePassword bResolveIpFromHostIfUnique : Bool) : Text :=
  if clientInfo.host = [] then []
  else
    let ip := resolveIpFromHostIfUnique clientInfo.host
    lit "http://" ++
      ((if bIncludeNamePassword then clientInfo.username ++ byte ':' :: clientInfo.password ++
        [byte '@'] else []) ++
        ((if bResolveIpFromHostIfUnique ∧ ip ≠ [] then ip else clientInfo.host) ++
          if clientInfo.httpPort.val ≠ 0 then byte ':' :: natText clientInfo.httpPort.val.toNat else []))

/-- The delimiters of a URL are none of the text between them. -/
structure Printable (clientInfo : ControllerClientInfo) : Prop where
  host : clientInfo.host ≠ [] ∧ byte ':' ∉ clientInfo.host ∧ byte '/' ∉ clientInfo.host ∧
    byte '@' ∉ clientInfo.host
  username : byte ':' ∉ clientInfo.username ∧ byte '/' ∉ clientInfo.username ∧ byte '@' ∉ clientInfo.username
  password : byte '/' ∉ clientInfo.password ∧ byte '@' ∉ clientInfo.password
  nulFree : NulFree clientInfo.host ∧ NulFree clientInfo.username ∧ NulFree clientInfo.password

def printedPort (clientInfo : ControllerClientInfo) : Option Text :=
  if clientInfo.httpPort.val ≠ 0 then some (natText clientInfo.httpPort.val.toNat) else none

theorem printedPort_digits (clientInfo : ControllerClientInfo) :
    ∀ p ∈ clientInfo.printedPort, ∀ b ∈ p, isDigit b = true := by
  intro p printed
  unfold printedPort at printed
  split at printed
  · obtain rfl := Option.mem_some_iff.mp printed
    exact natText_digits _
  · simp at printed

theorem printedPort_read (clientInfo : ControllerClientInfo) :
    (clientInfo.printedPort.map parsePort).getD initial.httpPort = clientInfo.httpPort := by
  unfold printedPort
  split
  · exact parsePort_natText clientInfo.httpPort
  · rename_i zero
    exact Subtype.ext (not_not.mp zero).symm

theorem getURL_eq {clientInfo : ControllerClientInfo} (resolve : Text → Text) (printable : clientInfo.Printable) :
    clientInfo.getURL resolve true false = lit "http" ++ colonSlashSlash ++
      (clientInfo.username ++ byte ':' :: clientInfo.password ++
        byte '@' :: (clientInfo.host ++ portPart clientInfo.printedPort ++ [])) := by
  have port : (if clientInfo.httpPort.val ≠ 0 then byte ':' :: natText clientInfo.httpPort.val.toNat else []) =
      portPart clientInfo.printedPort := by
    unfold printedPort
    split <;> rfl
  have scheme : lit "http://" = lit "http" ++ colonSlashSlash := by decide
  rw [getURL, if_neg printable.host.1, port, scheme]
  simp

/-- What is printed is parsed as it was. -/
theorem parse_getURL (resolve : Text → Text) (clientInfo prior : ControllerClientInfo)
    (printable : clientInfo.Printable) :
    ∃ parsed, parseClientInfoFromURL (clientInfo.getURL resolve true false) prior = .ok parsed ∧
      parsed.host = clientInfo.host ∧
      parsed.httpPort = clientInfo.httpPort ∧ parsed.username = clientInfo.username ∧
        parsed.password = clientInfo.password := by
  obtain ⟨host, username, password⟩ := printable.nulFree
  have port : NulFree (portPart clientInfo.printedPort) := nulFree_portPart clientInfo.printedPort_digits
  have nulFree : NulFree (clientInfo.getURL resolve true false) := by
    rw [getURL_eq resolve printable]
    exact nulFree_append.mpr ⟨by decide,
      nulFree_append.mpr ⟨nulFree_append.mpr ⟨username, nulFree_cons.mpr ⟨by decide, password⟩⟩,
      nulFree_cons.mpr ⟨by decide, nulFree_append.mpr ⟨nulFree_append.mpr ⟨host, port⟩, List.not_mem_nil⟩⟩⟩⟩
  have read := parseHost_parts { initial with username := clientInfo.username, password := clientInfo.password }
    ⟨printable.host.2.1, printable.host.2.2.1⟩ clientInfo.printedPort_digits (.inl rfl)
  rw [parseClientInfoFromURL, cString_of_nulFree _ nulFree, getURL_eq resolve printable,
    parseURL_scheme (by decide),
    parseAuthority_password printable.username printable.password, read]
  exact ⟨_, rfl, rfl, clientInfo.printedPort_read, rfl, rfl⟩

/-- A password with a colon in it. -/
theorem parse_getURL_colon : ∃ parsed, parseClientInfoFromURL
      (getURL id { initial with host := [byte 'h'], password := [byte ':'] } true false) initial = .ok parsed ∧
    parsed.host = [byte 'h'] ∧ parsed.httpPort = initial.httpPort ∧ parsed.username = [] ∧
      parsed.password = [byte ':'] :=
  parse_getURL id _ initial ⟨by decide, by decide, by decide, by decide⟩

/-- `Reset`, which leaves the user agent. -/
def reset (clientInfo : ControllerClientInfo) : ControllerClientInfo :=
  { initial with userAgent := clientInfo.userAgent }

def loadFromJson (platform : Platform) (rClientInfo : Json) : Loading LoadError ControllerClientInfo Unit := do
  zoom (·.host) (fun x s => { s with host := x })
    (loadJsonValueByKey (loadJsonValue platform .string) rClientInfo "host")
  zoom (·.httpPort) (fun x s => { s with httpPort := x })
    (loadJsonValueByKey (loadJsonValue platform (.integer .uint16)) rClientInfo "httpPort")
  zoom (·.username) (fun x s => { s with username := x })
    (loadJsonValueByKey (loadJsonValue platform .string) rClientInfo "username")
  zoom (·.password) (fun x s => { s with password := x })
    (loadJsonValueByKey (loadJsonValue platform .string) rClientInfo "password")
  zoom (·.additionalHeaders) (fun x s => { s with additionalHeaders := x })
    (loadJsonValueByKey (loadJsonValue platform (.vector .string)) rClientInfo "additionalHeaders")
  zoom (·.unixEndpoint) (fun x s => { s with unixEndpoint := x })
    (loadJsonValueByKey (loadJsonValue platform .string) rClientInfo "unixEndpoint")

/-- `SetJsonValueByKey` under a new key, if the value is not the default. -/
def savedUnless (d : Prop) [Decidable d] (key : String) (v : Json) : Json.Members :=
  if d then [] else [(lit key, v)]

def saveToJson (clientInfo : ControllerClientInfo) : Json := .object <|
  savedUnless (clientInfo.host = []) "host" (saveJsonValue .string clientInfo.host) ++
  (savedUnless (clientInfo.httpPort.val = 0) "httpPort" (saveJsonValue (.integer .uint16) clientInfo.httpPort) ++
  (savedUnless (clientInfo.username = []) "username" (saveJsonValue .string clientInfo.username) ++
  (savedUnless (clientInfo.password = []) "password" (saveJsonValue .string clientInfo.password) ++
  (savedUnless (clientInfo.additionalHeaders = []) "additionalHeaders"
    (saveJsonValue (.vector .string) clientInfo.additionalHeaders) ++
  savedUnless (clientInfo.unixEndpoint = []) "unixEndpoint" (saveJsonValue .string clientInfo.unixEndpoint)))))

def equals (clientInfo rhs : ControllerClientInfo) : Bool :=
  clientInfo.host == rhs.host && clientInfo.httpPort == rhs.httpPort && clientInfo.username == rhs.username &&
    clientInfo.password == rhs.password && clientInfo.additionalHeaders == rhs.additionalHeaders &&
    clientInfo.unixEndpoint == rhs.unixEndpoint

structure ZeroFree (clientInfo : ControllerClientInfo) : Prop where
  host : NulFree clientInfo.host
  username : NulFree clientInfo.username
  password : NulFree clientInfo.password
  additionalHeaders : ∀ header ∈ clientInfo.additionalHeaders, NulFree header
  unixEndpoint : NulFree clientInfo.unixEndpoint

theorem zoom_loaded {view : σ → τ} {put : τ → σ → σ} {p : Loading ε τ Unit} {s : σ}
    (loaded : p (view s) = (.ok (), x)) :
    (zoom view put p : Loading ε σ Unit) s = (.ok (), put x s) := by
  rw [zoom_apply, loaded]

section

variable {d : Prop} [Decidable d] {key : String} {t : Ty} {x : t.Val}

theorem findMember_savedUnless (v : Json) (name : Text) : Json.findMember (savedUnless d key v) name =
    if d ∨ lit key ≠ name then none else some v := by
  unfold savedUnless
  by_cases absent : d
  · simp [absent]
  · by_cases same : lit key = name
    · simp [absent, same]
    · simp [absent, same, Json.findMember_cons_other same]

/-- A member that was saved, or left out as the default, is restored. -/
theorem loadByKey_savedUnless {platform : Platform} {members : Json.Members}
    (found : Json.findMember members (lit key) = if d then none else some (saveJsonValue t x))
    (unsaved : d → t.initial = x) (savable : t.Savable) (solid : ∀ b, t ≠ .optional b) (valid : t.Valid x)
    (nulFree : t.NulFree x) :
    loadJsonValueByKey (loadJsonValue platform t) (.object members) key t.initial = (.ok (), x) := by
  have restores := loadJsonValue_restores platform t savable x valid nulFree
  have present := save_not_null t solid x
  unfold Restores at restores
  unfold loadJsonValueByKey
  by_cases absent : d
  · simp [found, absent, unsaved absent]
  · rw [if_neg absent] at found
    cases saved : saveJsonValue t x with
    | null => simp [saved, Json.isNull] at present
    | _ =>
      rw [saved] at found restores
      simp [found, mapError, restores, Except.mapError]

end

/-- Loading what was saved into a reset info keeps the user agent that was there. -/
theorem load_save {clientInfo : ControllerClientInfo} (platform : Platform) (zeroFree : clientInfo.ZeroFree)
    (prior : ControllerClientInfo) :
    loadFromJson platform clientInfo.saveToJson prior.reset =
      (.ok (), { clientInfo with userAgent := prior.userAgent }) := by
  have distinct : ["host", "httpPort", "username", "password", "additionalHeaders", "unixEndpoint"].Pairwise
      fun key name => lit key ≠ lit name ∧ lit name ≠ lit key := by decide
  simp only [List.pairwise_cons, List.forall_mem_cons, List.not_mem_nil, false_implies, implies_true] at distinct
  have host : loadJsonValueByKey (loadJsonValue platform .string) clientInfo.saveToJson "host" [] =
      (.ok (), clientInfo.host) :=
    loadByKey_savedUnless (d := clientInfo.host = [])
      (by simp [Json.findMember_append, findMember_savedUnless, distinct]) Eq.symm trivial (by simp) trivial
      zeroFree.host
  have httpPort : loadJsonValueByKey (loadJsonValue platform (.integer .uint16)) clientInfo.saveToJson "httpPort"
      (IntFormat.convert ⟨16, false⟩ 0) = (.ok (), clientInfo.httpPort) :=
    loadByKey_savedUnless (t := .integer .uint16) (d := clientInfo.httpPort.val = 0)
      (by simp [Json.findMember_append, findMember_savedUnless, distinct])
      (fun zero => Subtype.ext zero.symm) trivial (by simp) trivial trivial
  have username : loadJsonValueByKey (loadJsonValue platform .string) clientInfo.saveToJson "username" [] =
      (.ok (), clientInfo.username) :=
    loadByKey_savedUnless (d := clientInfo.username = [])
      (by simp [Json.findMember_append, findMember_savedUnless, distinct]) Eq.symm trivial (by simp) trivial
      zeroFree.username
  have password : loadJsonValueByKey (loadJsonValue platform .string) clientInfo.saveToJson "password" [] =
      (.ok (), clientInfo.password) :=
    loadByKey_savedUnless (d := clientInfo.password = [])
      (by simp [Json.findMember_append, findMember_savedUnless, distinct]) Eq.symm trivial (by simp) trivial
      zeroFree.password
  have additionalHeaders : loadJsonValueByKey (loadJsonValue platform (.vector .string))
      clientInfo.saveToJson "additionalHeaders" [] =
      (.ok (), clientInfo.additionalHeaders) :=
    loadByKey_savedUnless (d := clientInfo.additionalHeaders = [])
      (by simp [Json.findMember_append, findMember_savedUnless, distinct]) Eq.symm trivial (by simp)
      (fun _ _ => trivial) zeroFree.additionalHeaders
  have unixEndpoint : loadJsonValueByKey (loadJsonValue platform .string) clientInfo.saveToJson "unixEndpoint" [] =
      (.ok (), clientInfo.unixEndpoint) :=
    loadByKey_savedUnless (d := clientInfo.unixEndpoint = [])
      (by simp [Json.findMember_append, findMember_savedUnless, distinct]) Eq.symm trivial (by simp) trivial
      zeroFree.unixEndpoint
  unfold loadFromJson
  refine Eq.trans (bind_ok (zoom_loaded host)) ?_
  refine Eq.trans (bind_ok (zoom_loaded httpPort)) ?_
  refine Eq.trans (bind_ok (zoom_loaded username)) ?_
  refine Eq.trans (bind_ok (zoom_loaded password)) ?_
  refine Eq.trans (bind_ok (zoom_loaded additionalHeaders)) ?_
  exact zoom_loaded unixEndpoint

theorem equals_iff (clientInfo rhs : ControllerClientInfo) :
    clientInfo.equals rhs = true ↔ { clientInfo with userAgent := rhs.userAgent } = rhs := by
  cases clientInfo
  cases rhs
  simp [equals, and_assoc, Subtype.ext_iff]

/-- Loading what `x` saves after a reset makes `y` equal to `x`, and `operator==` tells whether two
infos have the same fields. -/
def Survives (platform : Platform) (x y u v : ControllerClientInfo) : Prop :=
  loadFromJson platform x.saveToJson y.reset = (.ok (), x) ∧ (u.equals v = true ↔ u = v)

/-- The user agent is neither reset nor saved, loaded or compared. -/
theorem survives_iff (platform : Platform) (x y u v : ControllerClientInfo) (zeroFree : x.ZeroFree) :
    Survives platform x y u v ↔
      x.userAgent = y.userAgent ∧ (u.userAgent = v.userAgent ∨ { u with userAgent := v.userAgent } ≠ v) := by
  have restored : loadFromJson platform x.saveToJson y.reset = (.ok (), x) ↔ x.userAgent = y.userAgent := by
    rw [load_save platform zeroFree y]
    cases x
    simp [eq_comm]
  have compared : (u.equals v = true ↔ u = v) ↔ u.userAgent = v.userAgent ∨
      { u with userAgent := v.userAgent } ≠ v := by
    rw [equals_iff]
    cases u
    cases v
    simp
    tauto
  exact and_congr restored compared

theorem survives_iff_initial :
    Survives default initial initial initial initial ↔ initial.userAgent = initial.userAgent ∧
    (initial.userAgent = initial.userAgent ∨ { initial with userAgent := initial.userAgent } ≠ initial) :=
  survives_iff default initial initial initial initial
    ⟨List.not_mem_nil, List.not_mem_nil, List.not_mem_nil, by simp [initial], List.not_mem_nil⟩

/-- A user agent is lost. -/
theorem userAgent_lost :
    ¬∀ (platform : Platform) (x y u v : ControllerClientInfo), x.ZeroFree → Survives platform x y u v := by
  intro each
  have zeroFree : ZeroFree { initial with userAgent := [byte 'a'] } :=
    ⟨List.not_mem_nil, List.not_mem_nil, List.not_mem_nil, by simp [initial], List.not_mem_nil⟩
  have lost := (each default { initial with userAgent := [byte 'a'] } initial initial initial zeroFree).1
  rw [load_save default zeroFree initial] at lost
  cases congrArg (fun result => result.2.userAgent) lost

end ControllerClientInfo

end MujinClient
