import MujinClient.ClientInfo

/-! The URIs that a client derives from the one it is made for. -/
namespace MujinClient

def slashSlash : Text := [byte '/', byte '/']

/-- The text in front of the first `//`, and the text behind it. -/
def aroundSlashes : Text → Option (Text × Text)
  | [] => none
  | b :: t =>
    if slashSlash <+: b :: t then some ([], t.drop 1)
    else (aroundSlashes t).map fun (front, rest) => (b :: front, rest)

/-- What the constructor of `ControllerClientImpl` sets before it makes its curl handle. -/
structure DerivedUris where
  username : Text
  clientInfo : ControllerClientInfo
  fulluri : Text
  baseuri : Text
  baseapiuri : Text
  basewebdavuri : Text

namespace DerivedUris

/-- `_fulluri`. -/
def withPassword (usernamepassword baseuri : Text) : Text :=
  match aroundSlashes baseuri with
  | some (front, rest) => front ++ slashSlash ++ usernamepassword ++ [byte '@'] ++ rest
  | none => slashSlash ++ usernamepassword ++ [byte '@'] ++ baseuri

/-- `_baseuri.substr(0, _baseuri.size() - 6)`. The difference wraps around. -/
def cutPort (baseuri : Text) : Text := if baseuri.length < 6 then baseuri else baseuri.take (baseuri.length - 6)

/-- The webdav server is on another port than the base URI. -/
def OtherPort (baseuri : Text) (options : BitVec 32) : Prop :=
  lit ":8000/" <:+ baseuri ∨ options &&& 0x80000000#32 ≠ 0

instance (baseuri : Text) (options : BitVec 32) : Decidable (OtherPort baseuri options) :=
  inferInstanceAs (Decidable (_ ∨ _))

/-- `_basewebdavuri`. -/
def webdavRoot (baseuri username : Text) (options : BitVec 32) : Text :=
  if OtherPort baseuri options then cutPort baseuri ++ lit "/u/" ++ username ++ lit "/"
  else baseuri ++ lit "u/" ++ username ++ lit "/"

def derive (usernamepassword baseuri : Text) (options : BitVec 32) : Except Thrown DerivedUris :=
  if baseuri = [] ∨ !usernamepassword.contains (byte ':') then .error (.load .assertion)
  else do
    let username := upTo (byte ':') usernamepassword
    let clientInfo ← ControllerClientInfo.parseURL (cString baseuri)
    let slashed := trailingSlash baseuri
    return {
      username := username
      clientInfo := { clientInfo with username := username, password := behind (byte ':') usernamepassword }
      fulluri := withPassword usernamepassword baseuri
      baseuri := slashed
      baseapiuri := slashed ++ lit "api/v1/"
      basewebdavuri := webdavRoot slashed username options }

end DerivedUris

namespace BaseUri

variable (u : BaseUri)

def schemeText : Text :=
  match u.scheme with
  | none => []
  | some scheme => scheme ++ colonSlashSlash

/-- The host of the URI behind a scheme and user information, in front of a port and a path. -/
def Places (scheme userinfo : Text) (port : Option Text) (path uri : Text) : Prop :=
  byte '/' ∉ userinfo ∧ (userinfo = [] ∨ userinfo.getLast? = some (byte '@')) ∧
    uri = scheme ++ userinfo ++ u.host ++ ControllerClientInfo.portPart port ++ path

/-- The host stays where it is in all URIs. Only the one for webdav is without the port, and only where
the server is on another one. -/
structure OnHost (usernamepassword : Text) (options : BitVec 32) (derived : DerivedUris) : Prop where
  clientInfo : derived.clientInfo.host = u.host
  fulluri : u.Places (if u.scheme.isSome then u.schemeText else slashSlash)
    (usernamepassword ++ [byte '@'] ++ u.userinfoText) u.port u.path derived.fulluri
  baseapiuri : u.Places u.schemeText u.userinfoText u.port (trailingSlash u.path ++ lit "api/v1/")
    derived.baseapiuri
  basewebdavuri : u.Places u.schemeText u.userinfoText
    (if DerivedUris.OtherPort (trailingSlash u.text) options then none else u.port)
    (trailingSlash u.path ++ lit "u/" ++ upTo (byte ':') usernamepassword ++ lit "/") derived.basewebdavuri

def StaysOnHost (usernamepassword : Text) (options : BitVec 32) : Prop :=
  ∃ derived, DerivedUris.derive usernamepassword u.text options = .ok derived ∧
    u.OnHost usernamepassword options derived

/-- The URI has a scheme and a host without a colon, behind a user without a password there is no
colon, and a port that is cut off has four digits and the path behind it at most a slash. -/
def Derivable (options : BitVec 32) : Prop :=
  u.scheme.isSome ∧ byte ':' ∉ u.host ∧ (∀ user ∈ u.userinfo, user.2 = none → u.port = none ∧ byte ':' ∉ u.path) ∧
    (DerivedUris.OtherPort (trailingSlash u.text) options →
      (u.path = [] ∨ u.path = [byte '/']) ∧ ∃ port ∈ u.port, port.length = 4)

theorem text_eq : u.text = u.schemeText ++ u.authority ++ u.path := rfl

theorem portText_eq : u.portText = ControllerClientInfo.portPart u.port := by
  unfold portText ControllerClientInfo.portPart
  cases u.port <;> rfl

theorem authority_eq : u.authority = u.userinfoText ++ u.host ++ ControllerClientInfo.portPart u.port := by
  rw [authority, portText_eq]

theorem authority_nonempty : u.authority ≠ [] := by
  simp [authority, u.host_nonempty]

theorem userinfoText_at : u.userinfoText = [] ∨ u.userinfoText.getLast? = some (byte '@') := by
  unfold userinfoText
  split
  · exact .inl rfl
  · exact .inr List.getLast?_concat
  · exact .inr List.getLast?_concat

theorem userinfoText_slash : byte '/' ∉ u.userinfoText := fun inside =>
  u.authority_slash (by simp [authority, inside])

/-- The slash that the client adds belongs to the path. -/
theorem trailingSlash_text : trailingSlash u.text = u.schemeText ++ u.authority ++ trailingSlash u.path := by
  rcases u.path_slash with empty | slash
  · have last : u.text.getLast? ≠ some (byte '/') := by
      rw [text_eq, empty, List.append_nil, List.getLast?_append_of_ne_nil _ u.authority_nonempty]
      exact fun last => u.authority_slash (List.mem_of_getLast? last)
    rw [trailingSlash, if_pos last, text_eq, empty]
    simp [trailingSlash]
  · have nonempty : u.path ≠ [] := by rintro empty; simp [empty] at slash
    have last : u.text.getLast? = u.path.getLast? := by
      rw [text_eq, List.getLast?_append_of_ne_nil _ nonempty]
    unfold trailingSlash
    rw [last]
    split
    · rw [text_eq, List.append_assoc]
    · exact u.text_eq

end BaseUri

theorem DerivedUris.derive_eq_ok_iff {usernamepassword baseuri : Text} {options : BitVec 32}
    {derived : DerivedUris} :
    derive usernamepassword baseuri options = .ok derived ↔ (baseuri ≠ [] ∧ byte ':' ∈ usernamepassword) ∧
      ∃ clientInfo, ControllerClientInfo.parseURL (cString baseuri) = .ok clientInfo ∧
        { username := upTo (byte ':') usernamepassword
          clientInfo := { clientInfo with
            username := upTo (byte ':') usernamepassword, password := behind (byte ':') usernamepassword }
          fulluri := withPassword usernamepassword baseuri
          baseuri := trailingSlash baseuri
          baseapiuri := trailingSlash baseuri ++ lit "api/v1/"
          basewebdavuri := webdavRoot (trailingSlash baseuri) (upTo (byte ':') usernamepassword) options } =
            derived := by
  have contained : (!usernamepassword.contains (byte ':')) = true ↔ byte ':' ∉ usernamepassword := by simp
  unfold derive
  split
  · rename_i refused
    refine iff_of_false (fun impossible => by cases impossible) fun made => ?_
    exact refused.elim made.1.1 fun absent => contained.mp absent made.1.2
  · rename_i accepted
    have both := not_or.mp accepted
    rw [and_iff_right ⟨both.1, not_not.mp (mt contained.mpr both.2)⟩]
    cases ControllerClientInfo.parseURL (cString baseuri) with
    | error e => simp [bind, Except.bind]
    | ok clientInfo => simp [bind, Except.bind, pure, Except.pure]

theorem aroundSlashes_append (absent : byte '/' ∉ s) (t : Text) :
    aroundSlashes (s ++ t) = (aroundSlashes t).map fun (front, rest) => (s ++ front, rest) := by
  induction s with
  | nil => simp
  | cons b s ih =>
    have other : byte '/' ≠ b := fun same => absent (same ▸ List.mem_cons_self)
    rw [List.cons_append, aroundSlashes, if_neg (by simp [slashSlash, other]),
      ih fun inside => absent (List.mem_cons_of_mem b inside), Option.map_map]
    rfl

theorem aroundSlashes_scheme (plain : byte '/' ∉ scheme) (rest : Text) :
    aroundSlashes (scheme ++ colonSlashSlash ++ rest) = some (scheme ++ [byte ':'], rest) := by
  have front : byte '/' ∉ scheme ++ [byte ':'] := by
    have other : byte '/' ≠ byte ':' := by decide
    simp [plain, other]
  have split : scheme ++ colonSlashSlash ++ rest = scheme ++ [byte ':'] ++ (slashSlash ++ rest) := by
    simp [colonSlashSlash, slashSlash]
  rw [split, aroundSlashes_append front]
  simp [aroundSlashes, slashSlash]

/-- A text with a scheme has the slashes of the scheme. -/
theorem behindScheme_of_aroundSlashes (absent : aroundSlashes t = none) : behindScheme t = none := by
  induction t with
  | nil => rfl
  | cons b t ih =>
    rw [aroundSlashes] at absent
    split at absent
    · simp at absent
    · have further : aroundSlashes t = none := by simpa using absent
      rw [behindScheme, if_neg, ih further]
      rintro ⟨rest, same⟩
      have behind : t = byte '/' :: byte '/' :: rest := (List.cons.inj same).2.symm
      simp [behind, aroundSlashes, slashSlash] at further

theorem head?_withPassword (found : aroundSlashes t = some around) (first : t.head? ≠ some (byte '/'))
    (usernamepassword : Text) :
    (DerivedUris.withPassword usernamepassword t).head? = t.head? := by
  obtain ⟨front, rest⟩ := around
  unfold DerivedUris.withPassword
  rw [found]
  cases t with
  | nil => simp [aroundSlashes] at found
  | cons b t =>
    rw [aroundSlashes] at found
    split at found
    · rename_i slashes
      obtain ⟨tail, same⟩ := slashes
      exact absurd (by rw [← same]; rfl) first
    · obtain ⟨around, -, same⟩ := Option.map_eq_some_iff.mp found
      obtain rfl : b :: around.1 = front := congrArg Prod.fst same
      rfl

namespace BaseUri

variable (u : BaseUri) {usernamepassword : Text} {options : BitVec 32}

theorem text_head : u.scheme = none → u.text.head? ≠ some (byte '/') := by
  intro bare first
  have text : u.text = u.authority ++ u.path := by simp [text, bare]
  rw [text, List.head?_append_of_ne_nil _ u.authority_nonempty] at first
  exact u.authority_slash (List.mem_of_head? first)

theorem port_plain {b : Byte} (mark : b = byte '/' ∨ b = byte '@') : b ∉ ControllerClientInfo.portPart u.port :=
  ControllerClientInfo.slash_portPart (fun p known => (u.port_digits p known).2) mark

theorem hostPart_host :
    hostPart (u.host ++ ControllerClientInfo.portPart u.port ++ u.path) = u.host ↔ byte ':' ∉ u.host := by
  have slash : byte '/' ∉ u.host ++ ControllerClientInfo.portPart u.port := fun inside =>
    (List.mem_append.mp inside).elim u.host_plain.1 (u.port_plain (.inl rfl))
  rw [hostPart, upTo_path slash u.path_slash, ← portText_eq, upTo_host]

/-- The colon of a port or of a path is taken for the one of a password. -/
theorem names_iff : Names u.host (u.authority ++ u.path) ↔
    byte ':' ∉ u.host ∧ ∀ user ∈ u.userinfo, user.2 = none → u.port = none ∧ byte ':' ∉ u.path := by
  have split : u.authority ++ u.path = u.userinfoText ++
      (u.host ++ ControllerClientInfo.portPart u.port ++ u.path) := by
    simp [authority_eq]
  rw [Names, upTo_path u.authority_slash u.path_slash, split]
  rcases known : u.userinfo with _ | ⟨user, _ | password⟩
  · have text : u.userinfoText = [] := by simp [userinfoText, known]
    have none : byte '@' ∉ u.authority := by
      simp [authority_eq, text, u.host_plain.2, u.port_plain (.inr rfl)]
    rw [if_neg none, text, List.nil_append, hostPart_host]
    simp
  · obtain ⟨colon, -, plain⟩ := u.user_plain _ known
    have text : u.userinfoText = user ++ [byte '@'] := by simp [userinfoText, known]
    have apart : byte ':' ≠ byte '@' := by decide
    rw [if_pos (by simp [authority_eq, text]), text, List.append_assoc, List.singleton_append,
      upTo_append plain, upTo_cons,
      behind_append plain, behind_cons, hostPart_host]
    cases u.port <;> simp [ControllerClientInfo.portPart, colon, apart]
    tauto
  · obtain ⟨-, -, plain⟩ := u.user_plain _ known
    have other := (u.password_plain _ known _ rfl).2
    have text : u.userinfoText = user ++ byte ':' :: password ++ [byte '@'] := by simp [userinfoText, known]
    have clean : byte '@' ∉ user ++ byte ':' :: password := by
      have apart : byte '@' ≠ byte ':' := by decide
      simp [plain, other, apart]
    rw [if_pos (by simp [authority_eq, text]), text, List.append_assoc, List.singleton_append,
      upTo_append clean, upTo_cons,
      behind_append clean, behind_cons, hostPart_host]
    simp

theorem parseURL_text {scheme : Text} (known : u.scheme = some scheme) :
    ControllerClientInfo.parseURL (cString u.text) = ControllerClientInfo.parseAuthority
      (u.authority ++ u.path) := by
  have text : u.text = scheme ++ colonSlashSlash ++ (u.authority ++ u.path) := by simp [text, known]
  rw [cString_of_nulFree _ u.text_nulFree, text, ControllerClientInfo.parseURL_scheme (u.scheme_plain _ known).1]

end BaseUri

theorem trailingSlash_split (slash : path = [] ∨ path.head? = some (byte '/')) :
    ∃ inner, trailingSlash path = inner ++ [byte '/'] ∧
    (inner = [] ∨ inner.head? = some (byte '/')) ∧ (inner = [] ↔ path = [] ∨ path = [byte '/']) := by
  obtain ⟨added, same, ⟨rfl, last⟩ | ⟨rfl, last⟩⟩ := trailingSlash_eq path
  · obtain ⟨inner, rfl⟩ := List.getLast?_eq_some_iff.mp last
    refine ⟨inner, by rw [same, List.append_nil], ?_, by simp⟩
    cases inner with
    | nil => exact .inl rfl
    | cons b inner => exact .inr (by simpa using slash)
  · refine ⟨path, same, slash, ?_⟩
    have other : path ≠ [byte '/'] := by rintro rfl; exact last rfl
    simp [other]

/-- A text between the port and the last slash is not cut off together with the port. -/
theorem take_port_iff (front : Text) {port inner : Text} (colon : port = [] ∨ port.head? = some (byte ':'))
    (slash : inner = [] ∨ inner.head? = some (byte '/')) :
    (front ++ port ++ inner).take (front.length + port.length + inner.length - 5) = front ++ inner ∧
      5 ≤ front.length + port.length + inner.length ↔ inner = [] ∧ port.length = 5 := by
  constructor
  · rintro ⟨cut, long⟩
    have lengths := congrArg List.length cut
    simp only [List.length_take, List.length_append] at lengths
    have five : port.length = 5 := by omega
    refine ⟨?_, five⟩
    have count : front.length + port.length + inner.length - 5 = front.length + inner.length := by omega
    rw [count, List.append_assoc, List.take_length_add_append, List.append_cancel_left_eq] at cut
    rcases slash with empty | slash
    · exact empty
    · obtain ⟨rest, rfl⟩ := List.head?_eq_some_iff.mp slash
      rcases colon with rfl | colon
      · simp at five
      · obtain ⟨digits, rfl⟩ := List.head?_eq_some_iff.mp colon
        have first := congrArg List.head? cut
        simp [byte] at first
  · rintro ⟨rfl, five⟩
    simp [five]

/-- Six characters are the port and a slash exactly if the port has four digits and no path behind it. -/
theorem cutPort_iff (front : Text) {path : Text} {port : Option Text}
    (slash : path = [] ∨ path.head? = some (byte '/')) :
    DerivedUris.cutPort (front ++ ControllerClientInfo.portPart port ++ trailingSlash path) ++
      [byte '/'] = front ++ trailingSlash path ↔
      (path = [] ∨ path = [byte '/']) ∧ ∃ p ∈ port, p.length = 4 := by
  obtain ⟨inner, split, shape, empty⟩ := trailingSlash_split slash
  have digits : (ControllerClientInfo.portPart port).length = 5 ↔ ∃ p ∈ port, p.length = 4 := by
    cases port <;> simp [ControllerClientInfo.portPart]
  have colon : ControllerClientInfo.portPart port = [] ∨ (ControllerClientInfo.portPart port).head? =
      some (byte ':') := by
    cases port <;> simp [ControllerClientInfo.portPart]
  rw [← empty, ← digits, ← take_port_iff front colon shape, split, ← List.append_assoc, ← List.append_assoc,
    List.append_left_inj,
    DerivedUris.cutPort]
  have length : (front ++ ControllerClientInfo.portPart port ++ inner ++ [byte '/']).length =
      front.length + (ControllerClientInfo.portPart port).length + inner.length + 1 := by
    simp [Nat.add_assoc]
  rw [length]
  split
  · rename_i short
    refine iff_of_false (fun same => ?_) fun both => by omega
    have lengths := congrArg List.length same
    simp only [List.length_append, List.length_singleton] at lengths
    omega
  · rename_i long
    rw [List.take_append_of_le_length (by simp only [List.length_append]; omega)]
    have five : 5 ≤ front.length + (ControllerClientInfo.portPart port).length + inner.length := by omega
    simp only [five, and_true]
    rfl

namespace BaseUri

variable (u : BaseUri) {usernamepassword : Text} {options : BitVec 32}

theorem places_userinfo (port : Option Text) (path uri : Text) :
    u.Places u.schemeText u.userinfoText port path uri ↔
    uri = u.schemeText ++ u.userinfoText ++ u.host ++ ControllerClientInfo.portPart port ++ path :=
  ⟨fun places => places.2.2, fun same => ⟨u.userinfoText_slash, u.userinfoText_at, same⟩⟩

theorem webdavRoot_iff (username : Text) : u.Places u.schemeText u.userinfoText
      (if DerivedUris.OtherPort (trailingSlash u.text) options then none else u.port)
      (trailingSlash u.path ++ lit "u/" ++ username ++ lit "/")
    (DerivedUris.webdavRoot (trailingSlash u.text) username options) ↔
    (DerivedUris.OtherPort (trailingSlash u.text) options →
      (u.path = [] ∨ u.path = [byte '/']) ∧ ∃ port ∈ u.port, port.length = 4) := by
  rw [places_userinfo, DerivedUris.webdavRoot]
  have text : trailingSlash u.text = u.schemeText ++ u.userinfoText ++ u.host ++
      ControllerClientInfo.portPart u.port ++ trailingSlash u.path := by
    simp [trailingSlash_text, authority_eq]
  by_cases other : DerivedUris.OtherPort (trailingSlash u.text) options
  · have slash : lit "/u/" = byte '/' :: lit "u/" := by decide
    simp only [other, if_true, true_imp_iff]
    rw [text, ← cutPort_iff (u.schemeText ++ u.userinfoText ++ u.host) u.path_slash, slash]
    generalize DerivedUris.cutPort _ = cut
    have left : cut ++ (byte '/' :: lit "u/") ++ username ++ lit "/" = cut ++ [byte '/'] ++
        (lit "u/" ++ username ++ lit "/") := by simp
    have right (front path : Text) : front ++ (path ++ lit "u/" ++ username ++ lit "/") = front ++ path ++
        (lit "u/" ++ username ++ lit "/") := by
      simp
    rw [left, right, List.append_left_inj, ControllerClientInfo.portPart, List.append_nil]
  · simp only [other, if_false, false_imp_iff, iff_true]
    simp [text]

theorem fulluri_placed (plain : byte '/' ∉ usernamepassword) {scheme : Text} (known : u.scheme = some scheme) :
    u.Places (if u.scheme.isSome then u.schemeText else slashSlash)
    (usernamepassword ++ [byte '@'] ++ u.userinfoText) u.port u.path
      (DerivedUris.withPassword usernamepassword u.text) := by
  have split : u.text = scheme ++ colonSlashSlash ++ (u.authority ++ u.path) := by simp [text, known]
  have front : u.schemeText = scheme ++ [byte ':'] ++ slashSlash := by
    simp [schemeText, known, colonSlashSlash, slashSlash]
  refine ⟨?_, .inr ?_, ?_⟩
  · have apart : byte '/' ≠ byte '@' := by decide
    simp [plain, apart, u.userinfoText_slash]
  · rcases u.userinfoText_at with empty | last
    · rw [empty, List.append_nil, List.getLast?_concat]
    · rw [List.getLast?_append, last]
      rfl
  · rw [DerivedUris.withPassword, split, aroundSlashes_scheme (u.scheme_plain _ known).2]
    simp [known, front, authority_eq]

/-- Without a scheme the info has no host, or the slashes that the user is put behind are in the path. -/
theorem scheme_needed (bare : u.scheme = none)
    (found : ControllerClientInfo.parseURL (cString u.text) = .ok clientInfo)
    (host : clientInfo.host = u.host) (path : Text) :
    ¬u.Places (if u.scheme.isSome then u.schemeText else slashSlash)
    (usernamepassword ++ [byte '@'] ++ u.userinfoText) u.port path
      (DerivedUris.withPassword usernamepassword u.text) := by
  rw [cString_of_nulFree _ u.text_nulFree, ControllerClientInfo.parseURL] at found
  cases around : aroundSlashes u.text with
  | none =>
    rw [behindScheme_of_aroundSlashes around] at found
    cases found
    exact fun _ => u.host_nonempty host.symm
  | some pair =>
    rintro ⟨-, -, same⟩
    have first := head?_withPassword around (u.text_head bare) usernamepassword
    rw [same] at first
    exact u.text_head bare (by rw [← first]; simp [bare, slashSlash])

/-- The derived URIs stay on the host of exactly the derivable URIs. -/
theorem staysOnHost_iff (pair : byte ':' ∈ usernamepassword) (plain : byte '/' ∉ usernamepassword) :
    u.StaysOnHost usernamepassword options ↔ u.Derivable options := by
  have nonempty : u.text ≠ [] := by simp [text_eq, u.authority_nonempty]
  simp only [StaysOnHost, DerivedUris.derive_eq_ok_iff, nonempty, pair, ne_eq, not_false_eq_true, and_self,
    true_and, Derivable]
  cases known : u.scheme with
  | none =>
    refine iff_of_false ?_ fun derivable => by simp at derivable
    rintro ⟨derived, ⟨clientInfo, found, rfl⟩, on⟩
    exact u.scheme_needed known found on.clientInfo u.path on.fulluri
  | some scheme =>
    have read := (ControllerClientInfo.parseAuthority_names u.host (u.authority ++ u.path)).trans u.names_iff
    rw [← u.parseURL_text known] at read
    rw [← and_assoc (a := byte ':' ∉ u.host), ← read, ← u.webdavRoot_iff (upTo (byte ':') usernamepassword)]
    constructor
    · rintro ⟨derived, ⟨clientInfo, found, rfl⟩, on⟩
      exact ⟨rfl, ⟨clientInfo, found, on.clientInfo⟩, on.basewebdavuri⟩
    · rintro ⟨-, ⟨clientInfo, found, host⟩, webdav⟩
      have api : trailingSlash u.text ++ lit "api/v1/" = u.schemeText ++ u.userinfoText ++ u.host ++
          ControllerClientInfo.portPart u.port ++ (trailingSlash u.path ++ lit "api/v1/") := by
        simp [trailingSlash_text, authority_eq]
      exact ⟨_, ⟨clientInfo, found, rfl⟩, host, u.fulluri_placed plain known,
        (u.places_userinfo _ _ _).mpr api, webdav⟩

theorem http_plain : ∀ s ∈ some (lit "http"), byte ':' ∉ s ∧ byte '/' ∉ s := by decide

theorem port8000_digits :
    ∀ p ∈ some [byte '8', byte '0', byte '0', byte '0'], p ≠ [] ∧ ∀ b ∈ p, isDigit b = true := by
  simp [isDigit, byte]

/-- `http://controller:8000` -/
def developmentServer : BaseUri where
  scheme := some (lit "http")
  userinfo := none
  host := lit "controller"
  port := some [byte '8', byte '0', byte '0', byte '0']
  path := []
  scheme_plain := http_plain
  user_plain := by simp
  password_plain := by simp
  host_nonempty := by decide
  host_plain := by decide
  host_colon := by decide
  port_digits := port8000_digits
  path_slash := DocumentedUrl.no_path
  nulFree := by decide

theorem developmentServer_stays : developmentServer.StaysOnHost (lit "u:p") 0#32 :=
  (staysOnHost_iff _ (by decide) (by decide)).mpr
    ⟨rfl, by decide, by simp [developmentServer], fun _ => ⟨.inl rfl, _, rfl, rfl⟩⟩

def controller : BaseUri := { developmentServer with port := none, port_digits := by simp }

/-- The cut takes the end of the host for a port. -/
theorem host_cut : ¬∀ (u : BaseUri) (usernamepassword : Text) (options : BitVec 32), byte ':' ∈ usernamepassword →
    byte '/' ∉ usernamepassword → byte '@' ∉ usernamepassword → u.StaysOnHost usernamepassword options := by
  intro each
  obtain ⟨derived, made, on⟩ := each controller (lit "u:p") 0x80000000#32 (by decide) (by decide) (by decide)
  obtain ⟨-, clientInfo, -, rfl⟩ := DerivedUris.derive_eq_ok_iff.mp made
  obtain ⟨-, port, impossible, -⟩ := (controller.webdavRoot_iff _).mp on.basewebdavuri (.inr (by decide))
  cases impossible

end BaseUri

end MujinClient
