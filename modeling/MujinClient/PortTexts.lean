import MujinClient.ClientInfo

/-! The texts that are read as ports, and which of them are numbers of ports. -/
namespace MujinClient.ControllerClientInfo

def portBehindHost (hostname : Text) : Option Text :=
  if (upTo (byte '/') hostname).contains (byte ':') then some (behind (byte ':') (upTo (byte '/') hostname))
  else none

/-- The port text in a URL. None is read after an exception. -/
def handedPort (url : Text) : Option Text :=
  match behindScheme (cString url) with
  | none => none
  | some hostname =>
    if (upTo (byte '/') hostname).contains (byte '@') then
      if hostname.contains (byte ':') && !(upTo (byte '@') hostname).contains (byte ':') then none
      else portBehindHost (behind (byte '@') hostname)
    else portBehindHost hostname

/-- Digits only, for a number that fits. -/
def IsPort (port : Text) : Prop := port.all isDigit = true ∧ digitsValue port ≤ 65535

instance (port : Text) : Decidable (IsPort port) := inferInstanceAs (Decidable (_ ∧ _))

def portNumber (port : Text) : Nat := if IsPort port then digitsValue port else 0

def ReadsPort (url : Text) (clientInfo : ControllerClientInfo) (port : Text) : Prop :=
  ∃ parsed, parseClientInfoFromURL url clientInfo = .ok parsed ∧ parsed.httpPort.val = portNumber port

variable {url port hostname : Text} {clientInfo parsed : ControllerClientInfo}

theorem parseHost_httpPort (clientInfo : ControllerClientInfo) (hostname : Text) :
    (parseHost clientInfo hostname).httpPort = ((portBehindHost hostname).map parsePort).getD
      clientInfo.httpPort := by
  unfold parseHost portBehindHost
  by_cases colon : byte ':' ∈ upTo (byte '/') hostname
  · simp [colon]
  · simp [colon]

/-- A port that is handed over is read and set, and otherwise it is the default one. An exception is
thrown before. -/
theorem parse_port (url : Text) (clientInfo : ControllerClientInfo) :
    (∃ parsed, parseClientInfoFromURL url clientInfo = .ok parsed ∧
      parsed.httpPort = ((handedPort url).map parsePort).getD initial.httpPort) ∨
    handedPort url = none ∧ parseClientInfoFromURL url clientInfo = .error .standard := by
  unfold handedPort parseClientInfoFromURL parseURL
  cases behindScheme (cString url) with
  | none => exact .inl ⟨_, rfl, rfl⟩
  | some hostname =>
    -- the user name and the password leave the port to the host
    have host : ∀ (info : ControllerClientInfo) rest, info.httpPort = initial.httpPort →
        (parseHost info rest).httpPort = ((portBehindHost rest).map parsePort).getD initial.httpPort := by
      intro info rest reset
      rw [parseHost_httpPort, reset]
    dsimp only
    unfold parseAuthority
    by_cases user : byte '@' ∈ upTo (byte '/') hostname
    · rw [if_pos user, if_pos (List.contains_iff_mem.mpr user)]
      by_cases colon : byte ':' ∈ hostname
      · by_cases password : byte ':' ∈ upTo (byte '@') hostname
        · simp only [colon, password, List.contains_iff_mem.mpr, if_true, Bool.not_true, Bool.and_false,
            Bool.false_eq_true, if_false]
          exact .inl ⟨_, rfl, host _ _ rfl⟩
        · exact .inr (by simp [colon, password, Except.map])
      · rw [if_neg colon, if_neg (by simp [colon])]
        exact .inl ⟨_, rfl, host _ _ rfl⟩
    · rw [if_neg user, if_neg (mt List.contains_iff_mem.mp user)]
      exact .inl ⟨_, rfl, host _ _ rfl⟩

theorem parse_handed (handed : handedPort url = some port) (clientInfo : ControllerClientInfo) :
    ∃ parsed, parseClientInfoFromURL url clientInfo = .ok parsed ∧ parsed.httpPort = parsePort port := by
  rcases parse_port url clientInfo with ⟨parsed, read, same⟩ | ⟨none, -⟩
  · rw [handed] at same
    exact ⟨parsed, read, same⟩
  · rw [handed] at none
    cases none

/-- A port is read as its number, other texts only if they add up to nothing. -/
theorem parsePort_val_iff (port : Text) :
    (parsePort port).val = portNumber port ↔ IsPort port ∨ 65536 ∣ placeValue port := by
  unfold portNumber
  by_cases number : IsPort port
  · have read := parsePort_small (List.all_eq_true.mp number.1) number.2
    simp [number, read]
  · rw [if_neg number, parsePort_places, Nat.cast_zero, Int.dvd_iff_emod_eq_zero]
    simp [number]

theorem readsPort_number (handed : handedPort url = some port) (clientInfo : ControllerClientInfo) :
    ReadsPort url clientInfo port ↔ (parsePort port).val = portNumber port := by
  obtain ⟨parsed, read, same⟩ := parse_handed handed clientInfo
  rw [ReadsPort, read, ← same]
  simp

/-- Exactly the numbers of ports are read as such, and what adds up to a multiple of 65536 as no port. -/
theorem readsPort_iff (url port : Text) (clientInfo : ControllerClientInfo) (handed : handedPort url = some port) :
    ReadsPort url clientInfo port ↔ IsPort port ∨ 65536 ∣ placeValue port := by
  rw [readsPort_number handed, parsePort_val_iff]

theorem readsPort_iff_eighty :
    ReadsPort (lit "http://h:80") initial (lit "80") ↔ IsPort (lit "80") ∨ 65536 ∣ placeValue (lit "80") :=
  readsPort_iff _ _ initial rfl

/-- Port 65616 is taken for port 80. -/
theorem port_wraps :
    ¬∀ (url port : Text) (clientInfo : ControllerClientInfo), handedPort url = some port →
      ReadsPort url clientInfo port := by
  intro each
  have read := each (lit "http://h:65616") (lit "65616") initial rfl
  rw [readsPort_number rfl, parsePort_val_iff] at read
  revert read
  decide

end MujinClient.ControllerClientInfo
