import MujinClient.ClientRuns
import MujinClient.GraphSubscriptions

/-! The requests and the subscriptions of a client go to one endpoint, and a subscription runs on a
connection to the endpoint in force when it was made. -/
namespace MujinClient

/-- The text of an option. Null or empty is not configured. -/
def OptionValue.configured : OptionValue → Text
  | .text t => t
  | _ => []

namespace GraphClient

/-- There is no proxy beside a unix socket, and the info names the socket of the handle. -/
@[mk_iff consistent_def]
structure Consistent (s : GraphClient) : Prop where
  exclusive : (s.handle.options .proxy).configured = [] ∨ (s.handle.options .unixSocketPath).configured = []
  agrees : s.clientInfo.unixEndpoint = (s.handle.options .unixSocketPath).configured

/-- No call loses the socket path without the info being changed, and no path ends at a zero byte
on the handle alone. -/
def KeepsEndpoint (s : GraphClient) : EndpointEvent → Prop
  | .setProxy _ _ results _ =>
    s.clientInfo.unixEndpoint = [] ∨ results .unixSocketPath = .fails false ∨
      ∀ o ∈ [CurlOption.unixSocketPath, .proxy, .proxyUserPwd], results o = .succeeds
  | .setUnixEndpoint unixendpoint results _ =>
    results .proxy = .succeeds → results .proxyUserPwd = .succeeds →
      (results .unixSocketPath = .succeeds → NulFree unixendpoint) ∧
      (results .unixSocketPath = .fails true → s.clientInfo.unixEndpoint = [])
  | _ => True

section

variable {s t : GraphClient}

@[simp] theorem handle_close : (s.close c).handle = s.handle := rfl

@[simp] theorem clientInfo_close : (s.close c).clientInfo = s.clientInfo := rfl

theorem release_frame : (s.release c).handle = s.handle ∧ (s.release c).clientInfo = s.clientInfo := by
  unfold release
  split <;> exact ⟨rfl, rfl⟩

theorem stopSubscriptions_frame : (s.stopSubscriptions callbackThrows).handle = s.handle ∧
    (s.stopSubscriptions callbackThrows).clientInfo = s.clientInfo := by
  unfold stopSubscriptions
  split
  · exact ⟨rfl, rfl⟩
  · split
    · cases callbackThrows <;> exact ⟨rfl, rfl⟩
    · exact ⟨rfl, rfl⟩

theorem connectionFor_frame (found : s.connectionFor connects = some (c, t)) :
    t.handle = s.handle ∧ t.clientInfo = s.clientInfo := by
  unfold connectionFor at found
  split at found
  · obtain ⟨-, rfl⟩ := Prod.mk.inj (Option.some.inj found)
    exact ⟨rfl, rfl⟩
  · split at found
    · obtain ⟨-, rfl⟩ := Prod.mk.inj (Option.some.inj found)
      exact ⟨rfl, rfl⟩
    · nomatch found

theorem configure_frame (s : GraphClient) (options : List (CurlOption × OptionValue)) (unixEndpoint : Text)
    (results : CurlOption → SetoptResult) (callbackThrows : Bool) :
    (s.configure options unixEndpoint results callbackThrows).handle = (setopts results s.handle options).1 ∧
    (s.configure options unixEndpoint results callbackThrows).clientInfo =
      if (setopts results s.handle options).2 then { s.clientInfo with unixEndpoint } else s.clientInfo := by
  unfold configure
  cases setopts results s.handle options with
  | mk handle ok =>
    cases ok with
    | false => exact ⟨rfl, rfl⟩
    | true => exact stopSubscriptions_frame

theorem executeGraphSubscription_frame : (s.executeGraphSubscription execution).handle = s.handle ∧
    (s.executeGraphSubscription execution).clientInfo = s.clientInfo := by
  unfold executeGraphSubscription
  cases found : s.connectionFor execution.connects with
  | none => exact ⟨rfl, rfl⟩
  | some used =>
    obtain ⟨c, t⟩ := used
    have frame := connectionFor_frame found
    cases execution.lost <;> cases execution.starts
    · exact ⟨release_frame.1.trans frame.1, release_frame.2.trans frame.2⟩
    · exact frame
    · exact ⟨release_frame.1.trans frame.1, release_frame.2.trans frame.2⟩
    · exact frame

theorem Consistent.congr (consistent : s.Consistent) (handle : t.handle = s.handle)
    (clientInfo : t.clientInfo = s.clientInfo) : t.Consistent := by
  obtain ⟨exclusive, agrees⟩ := consistent
  exact ⟨handle ▸ exclusive, handle ▸ clientInfo ▸ agrees⟩

/-- Once the socket path is gone, the info has to follow. -/
theorem consistent_pathless (path : (t.handle.options .unixSocketPath).configured = []) :
    t.Consistent ↔ t.clientInfo.unixEndpoint = [] := by
  rw [consistent_def, path]
  exact and_iff_right (.inr rfl)

theorem consistent_proxyless (proxy : (t.handle.options .proxy).configured = []) :
    t.Consistent ↔ t.clientInfo.unixEndpoint = (t.handle.options .unixSocketPath).configured := by
  rw [consistent_def]
  exact and_iff_right (.inl proxy)

theorem consistent_setProxy (consistent : s.Consistent) :
    (s.setProxy serverport userpw results callbackThrows).Consistent ↔
      s.KeepsEndpoint (.setProxy serverport userpw results callbackThrows) := by
  obtain ⟨handle, clientInfo⟩ := configure_frame s [(.unixSocketPath, .null), (.proxy, .text (cString serverport)),
    (.proxyUserPwd, .text (cString userpw))] [] results callbackThrows
  cases first : results .unixSocketPath with
  | fails released =>
    cases released with
    | false =>
      refine iff_of_true (consistent.congr (handle.trans ?_) (clientInfo.trans ?_)) (.inr (.inl first))
      · simp [setopts, first]
      · simp [setopts, first]
    | true =>
      rw [setProxy, consistent_pathless, clientInfo]
      · simp [setopts, first, KeepsEndpoint]
      · simp [handle, setopts, first, CurlHandle.setopt, OptionValue.configured]
  | succeeds =>
    rw [setProxy, consistent_pathless, clientInfo]
    · cases second : results .proxy <;> cases third : results .proxyUserPwd <;>
        simp [setopts, first, second, third, KeepsEndpoint]
    · rw [handle]
      cases second : results .proxy with
      | fails released =>
        cases released <;> simp [setopts, first, second, CurlHandle.setopt, OptionValue.configured]
      | succeeds =>
        cases third : results .proxyUserPwd with
        | fails released =>
          cases released <;> simp [setopts, first, second, third, CurlHandle.setopt, OptionValue.configured]
        | succeeds => simp [setopts, first, second, third, CurlHandle.setopt, OptionValue.configured]

theorem consistent_setUnixEndpoint (consistent : s.Consistent) :
    (s.setUnixEndpoint unixendpoint results callbackThrows).Consistent ↔
      s.KeepsEndpoint (.setUnixEndpoint unixendpoint results callbackThrows) := by
  obtain ⟨handle, clientInfo⟩ := configure_frame s [(.proxy, .null), (.proxyUserPwd, .null),
    (.unixSocketPath, .text (cString unixendpoint))] unixendpoint results callbackThrows
  cases first : results .proxy with
  | fails released =>
    -- Nothing but the proxy has changed.
    refine iff_of_true ?_ fun succeeds => by simp [first] at succeeds
    cases released with
    | false =>
      exact consistent.congr (handle.trans (by simp [setopts, first]))
        (clientInfo.trans (by simp [setopts, first]))
    | true =>
      rw [setUnixEndpoint, consistent_proxyless, handle, clientInfo]
      · simpa [setopts, first, CurlHandle.setopt] using consistent.agrees
      · simp [handle, setopts, first, CurlHandle.setopt, OptionValue.configured]
  | succeeds =>
    have proxy : ((s.setUnixEndpoint unixendpoint results callbackThrows).handle.options
        .proxy).configured = [] := by
      rw [setUnixEndpoint, handle]
      cases second : results .proxyUserPwd with
      | fails released =>
        cases released <;> simp [setopts, first, second, CurlHandle.setopt, OptionValue.configured]
      | succeeds =>
        cases third : results .unixSocketPath with
        | fails released =>
          cases released <;> simp [setopts, first, second, third, CurlHandle.setopt, OptionValue.configured]
        | succeeds => simp [setopts, first, second, third, CurlHandle.setopt, OptionValue.configured]
    rw [consistent_proxyless proxy, setUnixEndpoint, handle, clientInfo]
    cases second : results .proxyUserPwd with
    | fails released =>
      cases released <;> simpa [setopts, first, second, CurlHandle.setopt, KeepsEndpoint] using consistent.agrees
    | succeeds =>
      cases third : results .unixSocketPath with
      | fails released =>
        cases released
        · simpa [setopts, first, second, third, CurlHandle.setopt, KeepsEndpoint] using consistent.agrees
        · simp [setopts, first, second, third, CurlHandle.setopt, KeepsEndpoint, OptionValue.configured]
      | succeeds =>
        have path : unixendpoint = cString unixendpoint ↔ NulFree unixendpoint :=
          eq_comm.trans (cString_eq_self_iff unixendpoint)
        simpa [setopts, first, second, third, CurlHandle.setopt, KeepsEndpoint, OptionValue.configured] using path

theorem consistent_step (consistent : s.Consistent) (event : EndpointEvent) :
    s.KeepsEndpoint event ↔ ∀ next, s.step event = some next → next.Consistent := by
  cases event with
  | setProxy => simpa [step] using (consistent_setProxy consistent).symm
  | setUnixEndpoint => simpa [step] using (consistent_setUnixEndpoint consistent).symm
  | executeGraphSubscription =>
    refine iff_of_true trivial fun next taken => ?_
    obtain rfl := Option.some.inj taken
    exact consistent.congr executeGraphSubscription_frame.1 executeGraphSubscription_frame.2
  | destroys =>
    refine iff_of_true trivial fun next taken => ?_
    obtain ⟨c, -, rfl⟩ := Option.map_eq_some_iff.mp taken
    exact consistent.congr release_frame.1 release_frame.2
  | loses =>
    refine iff_of_true trivial fun next taken => ?_
    simp only [step, Option.ite_none_right_eq_some, Option.some.injEq] at taken
    exact consistent.congr (taken.2 ▸ rfl) (taken.2 ▸ rfl)

end

theorem constructed_consistent (clientInfo : ControllerClientInfo) (proxyserverport proxyuserpw useragent : Text) :
    (constructed clientInfo proxyserverport proxyuserpw useragent).Consistent :=
  ⟨.inr rfl, rfl⟩

/-- In every state on the way the handle and the info agree, exactly if no call changes the socket
path alone. -/
theorem endpoints_agree_iff (clientInfo : ControllerClientInfo)
    (proxyserverport proxyuserpw useragent : Text) (events : List EndpointEvent) :
    Transition.Meets KeepsEndpoint step (constructed clientInfo proxyserverport proxyuserpw useragent) events ↔
      ∀ before, before <+: events → ∀ s,
        Transition.run step (constructed clientInfo proxyserverport proxyuserpw useragent) before = some s →
          s.Consistent :=
  Transition.meets_iff Consistent (fun _ event consistent => consistent_step consistent event)
    (constructed_consistent ..)

/-- A proxy that is refused leaves the info at the socket that the handle has lost. -/
theorem setProxy_leaves_endpoint :
    ¬∀ (clientInfo : ControllerClientInfo) (proxyserverport proxyuserpw useragent : Text)
    (events : List EndpointEvent) (s : GraphClient),
    Transition.run step (constructed clientInfo proxyserverport proxyuserpw useragent) events = some s →
      s.Consistent := by
  intro consistent
  have agrees := (consistent ⟨[], ⟨0, by decide⟩, [], [], [], [], []⟩ [] [] []
    [.setUnixEndpoint [1] (fun _ => .succeeds) false,
      .setProxy [] [] (fun o => if o = .proxy then .fails false else .succeeds) false] _ rfl).agrees
  nomatch agrees

def answers (results : CurlOption → SetoptResult) : (a : ClientAction) → a.Answer
  | .setopt o _ => decide (results o = .succeeds)
  | a => ControllerClient.unreachable a

def setters (options : List (CurlOption × OptionValue)) (rest : Request Unit) : Request Unit :=
  options.foldr (fun option rest => Request.setter option.1 option.2 >>= fun _ => rest) rest

theorem after_setter {results : CurlOption → SetoptResult} (h : CurlHandle) (o : CurlOption)
    (v : OptionValue) (rest : Request Unit)
    (n : Nat) : h.after ((Request.setter o v >>= fun _ => rest).answered (answers results) (n + 1)).1 =
      if results o = .succeeds then (h.setopt o v).after (rest.answered (answers results) n).1 else h := by
  have performed : h.after ((Request.setter o v >>= fun _ => rest).answered (answers results) (n + 1)).1 =
      (h.step ⟨.setopt o v, answers results (.setopt o v)⟩).after ((Request.demand (answers results (.setopt o v))
        (Request.curlError s!"curl_easy_setopt {o.name}") >>= fun _ => rest).answered (answers results) n).1 := rfl
  rw [performed]
  by_cases succeeds : results o = .succeeds
  · have answer : answers results (.setopt o v) = true := by simp [answers, succeeds]
    rw [answer, if_pos succeeds]
    rfl
  · have answer : answers results (.setopt o v) = false := by simp [answers, succeeds]
    rw [answer, if_neg succeeds]
    cases n <;> rfl

theorem after_setters {results : CurlOption → SetoptResult} (kept : ∀ o, results o ≠ .fails true)
    (options : List (CurlOption × OptionValue)) (h : CurlHandle) :
    h.after ((setters options (Request.locked Request.calls)).answered (answers results) (options.length + 3)).1 =
      (setopts results h options).1 := by
  induction options generalizing h with
  | nil => rfl
  | cons option rest ih =>
    obtain ⟨o, v⟩ := option
    refine (after_setter h o v (setters rest (Request.locked Request.calls)) (rest.length + 3)).trans ?_
    cases result : results o with
    | succeeds => simp [setopts, result, ih]
    | fails released =>
      cases released with
      | true => exact absurd result (kept o)
      | false => simp [setopts, result]

/-- The programs of the setters leave the handle that the setters leave here. -/
theorem after_script {results : CurlOption → SetoptResult} (kept : ∀ o, results o ≠ .fails true)
    (client : ControllerClient) (s : GraphClient) (callbackThrows : Bool) :
    (∀ serverport userpw,
      s.handle.after ((client.script (.setProxy serverport userpw)).answered (answers results) 6).1 =
      (s.setProxy serverport userpw results callbackThrows).handle) ∧
    ∀ unixendpoint,
      s.handle.after ((client.script (.setUnixEndpoint unixendpoint)).answered (answers results) 6).1 =
      (s.setUnixEndpoint unixendpoint results callbackThrows).handle := by
  constructor
  · intro serverport userpw
    rw [setProxy, (configure_frame ..).1]
    exact after_setters kept
      [(.unixSocketPath, .null), (.proxy, .text (cString serverport)),
        (.proxyUserPwd, .text (cString userpw))] s.handle
  · intro unixendpoint
    rw [setUnixEndpoint, (configure_frame ..).1]
    exact after_setters kept
      [(.proxy, .null), (.proxyUserPwd, .null), (.unixSocketPath, .text (cString unixendpoint))] s.handle

def endpointOf (s : GraphClient) (c : Nat) : Option Text := s.connections[c]?.map (·.clientInfo.unixEndpoint)

def SetoptsSucceed (_ : GraphClient) : EndpointEvent → Prop
  | .setProxy _ _ results _ => ∀ o ∈ [CurlOption.unixSocketPath, .proxy, .proxyUserPwd], results o = .succeeds
  | .setUnixEndpoint _ results _ => ∀ o ∈ [CurlOption.proxy, .proxyUserPwd, .unixSocketPath], results o = .succeeds
  | _ => True

/-- What the weak pointer can still be used for: a connection since the first `n`, to the endpoint in
force. -/
structure Fresh (n : Nat) (s : GraphClient) : Prop where
  bound : n ≤ s.connections.length
  known : ∀ c, s.graphSubscriptionWebSocketHandler = some c → c < s.connections.length
  current : ∀ c, s.lock = some c → s.isStreamOpen c = true → n ≤ c ∧
    s.endpointOf c = some s.clientInfo.unixEndpoint

section

variable {s t : GraphClient}

@[simp] theorem length_close : (s.close c).connections.length = s.connections.length := by simp [close]

@[simp] theorem lock_close : (s.close c).lock = s.lock := rfl

@[simp] theorem endpointOf_close : (s.close c).endpointOf d = s.endpointOf d := by
  simp only [endpointOf, close, List.getElem?_modify]
  cases s.connections[d]? with
  | none => rfl
  | some connection => by_cases same : c = d <;> simp [same]

@[simp] theorem isStreamOpen_close : (s.close c).isStreamOpen d = (s.isStreamOpen d && decide (c ≠ d)) := by
  simp only [isStreamOpen, close, List.getElem?_modify]
  cases s.connections[d]? with
  | none => rfl
  | some connection => by_cases same : c = d <;> simp [same]

theorem Fresh.mono (fresh : Fresh n s) (earlier : m ≤ n) : Fresh m s where
  bound := earlier.trans fresh.bound
  known := fresh.known
  current c held isOpen := (fresh.current c held isOpen).imp_left earlier.trans

theorem Fresh.close (fresh : Fresh n s) (c : Nat) : Fresh n (s.close c) where
  bound := by simpa using fresh.bound
  known d pointer := by simpa using fresh.known d pointer
  current d held isOpen := by
    rw [isStreamOpen_close, Bool.and_eq_true] at isOpen
    rw [endpointOf_close]
    exact fresh.current d held isOpen.1

theorem Fresh.release (fresh : Fresh n s) (c : Nat) : Fresh n (s.release c) := by
  unfold GraphClient.release
  split
  · exact fresh
  · exact fresh.close c

/-- A handler that goes away can only expire the weak pointer. -/
theorem Fresh.destroys (fresh : Fresh n s) (subscription : Nat) :
    Fresh n { s with subscriptions := s.subscriptions.eraseIdx subscription } where
  bound := fresh.bound
  known := fresh.known
  current c held isOpen := by
    obtain ⟨pointer, member⟩ := Option.filter_eq_some_iff.mp held
    have before : s.lock = some c :=
      Option.filter_eq_some_iff.mpr ⟨pointer, by simpa using List.mem_of_mem_eraseIdx (of_decide_eq_true member)⟩
    exact fresh.current c before isOpen

/-- Whatever the callbacks do, no open connection can be reached afterwards. -/
theorem stopSubscriptions_closes (held : (s.stopSubscriptions callbackThrows).lock = some c) :
    (s.stopSubscriptions callbackThrows).isStreamOpen c = false := by
  unfold stopSubscriptions at held ⊢
  cases locked : s.lock with
  | none => simp [locked] at held
  | some d =>
    simp only [locked] at held ⊢
    cases isOpen : s.isStreamOpen d with
    | false =>
      obtain rfl : d = c := by simpa [isOpen, locked] using held
      simp [isOpen]
    | true =>
      cases callbackThrows with
      | false => simp [isOpen, lock] at held
      | true =>
        obtain rfl : d = c := by simpa [isOpen, locked] using held
        simp [isOpen]

theorem stopSubscriptions_pointer
    (pointer : (s.stopSubscriptions callbackThrows).graphSubscriptionWebSocketHandler = some c) :
    s.graphSubscriptionWebSocketHandler = some c := by
  unfold stopSubscriptions at pointer
  split at pointer
  · exact pointer
  · split at pointer
    · cases callbackThrows
      · nomatch pointer
      · exact pointer
    · exact pointer

theorem length_stopSubscriptions :
    (s.stopSubscriptions callbackThrows).connections.length = s.connections.length := by
  unfold stopSubscriptions
  split
  · rfl
  · split
    · cases callbackThrows <;> exact length_close
    · rfl

theorem setopts_succeed (succeed : ∀ o ∈ options.map Prod.fst, results o = .succeeds) (h : CurlHandle) :
    (setopts results h options).2 = true := by
  induction options generalizing h with
  | nil => rfl
  | cons option rest ih =>
    obtain ⟨o, v⟩ := option
    obtain ⟨first, rest⟩ := List.forall_mem_cons.mp succeed
    simpa [setopts, first] using ih rest (h.setopt o v)

theorem fresh_stopSubscriptions (known : ∀ c, s.graphSubscriptionWebSocketHandler = some c →
    c < s.connections.length) :
    Fresh s.connections.length (s.stopSubscriptions callbackThrows) where
  bound := length_stopSubscriptions.ge
  known c pointer := (known c (stopSubscriptions_pointer pointer)).trans_eq length_stopSubscriptions.symm
  current c held isOpen := by simp [stopSubscriptions_closes held] at isOpen

/-- After a change of the endpoint no older connection is used. -/
theorem Fresh.configure (fresh : Fresh n s) (succeed : ∀ o ∈ options.map Prod.fst, results o = .succeeds) :
    Fresh s.connections.length (s.configure options unixEndpoint results callbackThrows) := by
  unfold GraphClient.configure
  have done := setopts_succeed succeed s.handle
  cases set : setopts results s.handle options with
  | mk handle ok =>
    obtain rfl : ok = true := by simpa [set] using done
    let t : GraphClient := { s with handle, clientInfo := { s.clientInfo with unixEndpoint } }
    have known (c : Nat) (pointer : t.graphSubscriptionWebSocketHandler = some c) : c <
        t.connections.length := fresh.known c pointer
    exact fresh_stopSubscriptions known

/-- The connection of a call, and what the call leaves of the weak pointer's. -/
theorem Fresh.connectionFor (fresh : Fresh n s) (used : s.connectionFor connects = some (c, t)) :
    Fresh n t ∧ n ≤ c ∧ c < t.connections.length ∧ t.endpointOf c = some s.clientInfo.unixEndpoint ∧
      t.clientInfo = s.clientInfo := by
  unfold GraphClient.connectionFor at used
  cases reused : s.lock.filter s.isStreamOpen with
  | some d =>
    obtain ⟨rfl, rfl⟩ : d = c ∧ s = t := by simpa [reused] using used
    obtain ⟨held, isOpen⟩ := Option.filter_eq_some_iff.mp reused
    obtain ⟨later, endpoint⟩ := fresh.current d held isOpen
    exact ⟨fresh, later, fresh.known d (Option.filter_eq_some_iff.mp held).1, endpoint, rfl⟩
  | none =>
    cases connects with
    | false => simp [reused] at used
    | true =>
      obtain ⟨rfl, rfl⟩ : s.connections.length = c ∧
          { s with connections := s.connections ++ [⟨s.clientInfo, true⟩] } = t := by
        simpa [reused] using used
      refine ⟨⟨?_, fun d pointer => ?_, fun d held isOpen => ?_⟩, fresh.bound, by simp, by simp [endpointOf], rfl⟩
      · simpa using fresh.bound.trans (Nat.le_succ _)
      · simpa using (fresh.known d pointer).trans (Nat.lt_succ_self _)
      · -- The pointer still names the connection it named, which was not open.
        have before := fresh.known d (Option.filter_eq_some_iff.mp held).1
        have isOpen : s.isStreamOpen d = true := by
          simpa [isStreamOpen, List.getElem?_append_left before] using isOpen
        have usable : s.lock.filter s.isStreamOpen = some d := Option.filter_eq_some_iff.mpr ⟨held, isOpen⟩
        nomatch usable.symm.trans reused

/-- A subscription makes the pointer name the connection it runs on. -/
theorem Fresh.started (fresh : Fresh n s) (bound : n ≤ c) (within : c < s.connections.length)
    (endpoint : s.endpointOf c = some s.clientInfo.unixEndpoint) :
    Fresh n { s with graphSubscriptionWebSocketHandler := some c, subscriptions := s.subscriptions ++ [c] } where
  bound := fresh.bound
  known d pointer := Option.some.inj pointer ▸ within
  current d held _ := by
    obtain rfl : c = d := Option.some.inj (Option.filter_eq_some_iff.mp held).1
    exact ⟨bound, endpoint⟩

theorem Fresh.executeGraphSubscription (fresh : Fresh n s) (execution : Execution) :
    Fresh n (s.executeGraphSubscription execution) := by
  unfold GraphClient.executeGraphSubscription
  cases used : s.connectionFor execution.connects with
  | none => exact fresh
  | some found =>
    obtain ⟨c, t⟩ := found
    obtain ⟨later, bound, within, endpoint, clientInfo⟩ := fresh.connectionFor used
    rw [← clientInfo] at endpoint
    cases execution.lost <;> cases execution.starts
    · exact later.release c
    · exact later.started bound within endpoint
    · exact (later.close c).release c
    · exact (later.close c).started bound (within.trans_eq length_close.symm) (endpointOf_close.trans endpoint)

end

theorem constructed_fresh (clientInfo : ControllerClientInfo) (proxyserverport proxyuserpw useragent : Text) :
    Fresh 0 (constructed clientInfo proxyserverport proxyuserpw useragent) :=
  ⟨Nat.zero_le _, nofun, nofun⟩

end GraphClient

def EndpointEvent.configures : EndpointEvent → Bool
  | .setProxy .. | .setUnixEndpoint .. => true
  | _ => false

def EndpointEvent.sets (endpoint : Text) : EndpointEvent → Text
  | .setProxy .. => []
  | .setUnixEndpoint unixendpoint _ _ => unixendpoint
  | _ => endpoint

def endpointInForce (events : List EndpointEvent) : Text :=
  events.foldl (fun endpoint event => event.sets endpoint) []

namespace GraphClient

section

variable {s t : GraphClient}

/-- A call that changes the endpoint outdates the connections there are. -/
theorem Fresh.configures {event : EndpointEvent} (fresh : Fresh n s) (configures : event.configures = true)
    (succeed : s.SetoptsSucceed event) (taken : s.step event = some t) : Fresh s.connections.length t := by
  cases event with
  | setProxy serverport userpw results callbackThrows =>
    obtain rfl := Option.some.inj taken
    exact fresh.configure succeed
  | setUnixEndpoint unixendpoint results callbackThrows =>
    obtain rfl := Option.some.inj taken
    exact fresh.configure succeed
  | _ => nomatch configures

/-- The connections that are usable stay fresh, and older ones never come back. -/
theorem Fresh.step {event : EndpointEvent} (fresh : Fresh n s) (succeed : s.SetoptsSucceed event)
    (taken : s.step event = some t) : Fresh n t := by
  cases event with
  | setProxy | setUnixEndpoint => exact Fresh.mono (fresh.configures rfl succeed taken) fresh.bound
  | executeGraphSubscription execution =>
    obtain rfl := Option.some.inj taken
    exact fresh.executeGraphSubscription execution
  | destroys subscription =>
    obtain ⟨c, -, rfl⟩ := Option.map_eq_some_iff.mp taken
    exact (fresh.destroys subscription).release c
  | loses c =>
    simp only [GraphClient.step, Option.ite_none_right_eq_some, Option.some.injEq] at taken
    exact taken.2 ▸ fresh.close c

theorem unixEndpoint_configure (succeed : ∀ o ∈ options.map Prod.fst, results o = .succeeds) :
    (s.configure options unixEndpoint results callbackThrows).clientInfo.unixEndpoint = unixEndpoint := by
  rw [(configure_frame ..).2, setopts_succeed succeed]
  rfl

theorem endpoint_step {event : EndpointEvent} (succeed : s.SetoptsSucceed event) (taken : s.step event = some t) :
    t.clientInfo.unixEndpoint = event.sets s.clientInfo.unixEndpoint := by
  cases event with
  | setProxy serverport userpw results callbackThrows =>
    obtain rfl := Option.some.inj taken
    exact unixEndpoint_configure succeed
  | setUnixEndpoint unixendpoint results callbackThrows =>
    obtain rfl := Option.some.inj taken
    exact unixEndpoint_configure succeed
  | executeGraphSubscription execution =>
    obtain rfl := Option.some.inj taken
    exact congrArg ControllerClientInfo.unixEndpoint executeGraphSubscription_frame.2
  | destroys subscription =>
    obtain ⟨c, -, rfl⟩ := Option.map_eq_some_iff.mp taken
    exact congrArg ControllerClientInfo.unixEndpoint release_frame.2
  | loses c =>
    simp only [GraphClient.step, Option.ite_none_right_eq_some, Option.some.injEq] at taken
    exact taken.2 ▸ rfl

theorem endpoint_run {events : List EndpointEvent} (succeed : Transition.Meets SetoptsSucceed step s events)
    (ran : Transition.run step s events = some t) :
    t.clientInfo.unixEndpoint = events.foldl (fun e event => event.sets e) s.clientInfo.unixEndpoint := by
  induction events generalizing s with
  | nil => exact congrArg (·.clientInfo.unixEndpoint) (Option.some.inj ran).symm
  | cons event rest ih =>
    obtain ⟨next, taken, ran⟩ := Option.bind_eq_some_iff.mp ran
    rw [ih (succeed.2 next taken) ran, endpoint_step succeed.1 taken, List.foldl_cons]

theorem Fresh.run {events : List EndpointEvent} (fresh : Fresh n s)
    (succeed : Transition.Meets SetoptsSucceed GraphClient.step s events)
    (ran : Transition.run GraphClient.step s events = some t) : Fresh n t :=
  Transition.run_invariant (Fresh n) (fun _ _ _ kept succeed taken => kept.step succeed taken) fresh succeed ran

end

section

variable {s t : GraphClient} {c : Nat}

def infos (s : GraphClient) : List ControllerClientInfo := s.connections.map (·.clientInfo)

theorem endpointOf_eq : s.endpointOf c = s.infos[c]?.map (·.unixEndpoint) := by
  rw [infos, List.getElem?_map, Option.map_map]
  rfl

theorem infos_close : (s.close c).infos = s.infos := by
  apply List.ext_getElem?
  intro d
  simp only [infos, close, List.getElem?_map, List.getElem?_modify]
  cases s.connections[d]? with
  | none => rfl
  | some connection => by_cases same : c = d <;> simp [same]

theorem infos_release : (s.release c).infos = s.infos := by
  unfold GraphClient.release
  split
  · rfl
  · exact infos_close

theorem infos_stopSubscriptions : (s.stopSubscriptions callbackThrows).infos = s.infos := by
  unfold stopSubscriptions
  split
  · rfl
  · split
    · cases callbackThrows <;> exact infos_close
    · rfl

theorem infos_configure : (s.configure options unixEndpoint results callbackThrows).infos = s.infos := by
  unfold GraphClient.configure
  split
  · rfl
  · exact infos_stopSubscriptions

theorem infos_connectionFor (used : s.connectionFor connects = some (c, t)) : s.infos <+: t.infos := by
  unfold GraphClient.connectionFor at used
  split at used
  · obtain ⟨-, rfl⟩ := Prod.mk.inj (Option.some.inj used)
    exact List.prefix_rfl
  · split at used
    · obtain ⟨-, rfl⟩ := Prod.mk.inj (Option.some.inj used)
      exact ⟨[s.clientInfo], by simp [infos]⟩
    · nomatch used

theorem infos_executeGraphSubscription (execution : Execution) :
    s.infos <+: (s.executeGraphSubscription execution).infos := by
  unfold GraphClient.executeGraphSubscription
  split
  · exact List.prefix_rfl
  · rename_i used
    apply (infos_connectionFor used).trans
    cases execution.lost <;> cases execution.starts
    · exact infos_release ▸ List.prefix_rfl
    · exact List.prefix_rfl
    · exact (infos_release.trans infos_close) ▸ List.prefix_rfl
    · exact infos_close ▸ List.prefix_rfl

theorem infos_step {event : EndpointEvent} (taken : s.step event = some t) : s.infos <+: t.infos := by
  cases event with
  | setProxy | setUnixEndpoint =>
    obtain rfl := Option.some.inj taken
    exact infos_configure ▸ List.prefix_rfl
  | executeGraphSubscription execution =>
    obtain rfl := Option.some.inj taken
    exact infos_executeGraphSubscription execution
  | destroys subscription =>
    obtain ⟨c, -, rfl⟩ := Option.map_eq_some_iff.mp taken
    exact infos_release (s := { s with subscriptions := s.subscriptions.eraseIdx subscription }) ▸ List.prefix_rfl
  | loses c =>
    simp only [GraphClient.step, Option.ite_none_right_eq_some, Option.some.injEq] at taken
    exact taken.2 ▸ infos_close ▸ List.prefix_rfl

theorem endpointOf_run {events : List EndpointEvent} (known : s.endpointOf c = some endpoint)
    (ran : Transition.run step s events = some t) : t.endpointOf c = some endpoint := by
  have unconditional : Transition.Meets (fun _ _ => True) step s events :=
    Transition.meets_of_forall fun _ _ _ => trivial
  obtain ⟨newer, grown⟩ : s.infos <+: t.infos :=
    Transition.run_invariant (fun u => s.infos <+: u.infos)
      (fun _ _ _ kept _ taken => kept.trans (infos_step taken)) List.prefix_rfl
      unconditional ran
  rw [endpointOf_eq] at known ⊢
  obtain ⟨info, found, rfl⟩ := Option.map_eq_some_iff.mp known
  obtain ⟨within, -⟩ := List.getElem?_eq_some_iff.mp found
  rw [← grown, List.getElem?_append_left within, found]
  rfl

/-- There is a connection for it: one that is open, or a new one. -/
def Connects (s : GraphClient) (execution : Execution) : Prop :=
  execution.connects = true ∨ ∃ c, s.lock = some c ∧ s.isStreamOpen c = true

theorem connectionFor_of_connects (connects : s.Connects execution) :
    ∃ c t, s.connectionFor execution.connects = some (c, t) := by
  unfold GraphClient.connectionFor
  cases reused : s.lock.filter s.isStreamOpen with
  | some d => exact ⟨d, s, rfl⟩
  | none =>
    rcases connects with new | ⟨c, held, isOpen⟩
    · exact ⟨_, _, by rw [new]; rfl⟩
    · nomatch (Option.filter_eq_some_iff.mpr ⟨held, isOpen⟩).symm.trans reused

theorem connects_of_connectionFor (used : s.connectionFor execution.connects = some (c, t)) :
    s.Connects execution := by
  unfold GraphClient.connectionFor at used
  cases reused : s.lock.filter s.isStreamOpen with
  | some d => exact .inr ⟨d, Option.filter_eq_some_iff.mp reused⟩
  | none =>
    cases new : execution.connects with
    | true => exact .inl new
    | false => simp [reused, new] at used

theorem subscriptions_connectionFor (used : s.connectionFor connects = some (c, t)) :
    t.subscriptions = s.subscriptions := by
  unfold GraphClient.connectionFor at used
  split at used
  · obtain ⟨-, rfl⟩ := Prod.mk.inj (Option.some.inj used)
    rfl
  · split at used
    · obtain ⟨-, rfl⟩ := Prod.mk.inj (Option.some.inj used)
      rfl
    · nomatch used

theorem subscriptions_release : (s.release c).subscriptions = s.subscriptions := by
  unfold GraphClient.release
  split <;> rfl

theorem subscriptions_unstarted (fails : ¬(execution.starts = true ∧ s.Connects execution)) :
    (s.executeGraphSubscription execution).subscriptions = s.subscriptions := by
  unfold GraphClient.executeGraphSubscription
  cases used : s.connectionFor execution.connects with
  | none => rfl
  | some found =>
    have refused : execution.starts = false := by
      cases starts : execution.starts with
      | false => rfl
      | true => exact absurd ⟨starts, connects_of_connectionFor used⟩ fails
    rw [← subscriptions_connectionFor used, refused]
    cases execution.lost
    · exact subscriptions_release
    · exact subscriptions_release

theorem subscriptions_started (starts : execution.starts = true)
    (used : s.connectionFor execution.connects = some (c, t)) :
    (s.executeGraphSubscription execution).subscriptions = s.subscriptions ++ [c] ∧
      (s.executeGraphSubscription execution).endpointOf c = t.endpointOf c := by
  rw [← subscriptions_connectionFor used]
  unfold GraphClient.executeGraphSubscription
  rw [used]
  dsimp only
  rw [if_pos starts]
  cases execution.lost with
  | false => exact ⟨rfl, rfl⟩
  | true => exact ⟨rfl, endpointOf_close⟩

end

/-- While no setopt fails, a call that starts a subscription adds one that runs on a connection to
the endpoint in force, now and from then on, and on none that was there when an endpoint was set. -/
theorem subscription_fresh {clientInfo : ControllerClientInfo} {proxyserverport proxyuserpw useragent : Text}
    {events later : List EndpointEvent} {s t : GraphClient} {execution : Execution}
    (succeed : Transition.Meets SetoptsSucceed step
      (constructed clientInfo proxyserverport proxyuserpw useragent) events)
    (ran : Transition.run step (constructed clientInfo proxyserverport proxyuserpw useragent) events = some s)
    (ranLater : Transition.run step (s.executeGraphSubscription execution) later = some t) :
    (¬(execution.starts = true ∧ s.Connects execution) →
      (s.executeGraphSubscription execution).subscriptions = s.subscriptions) ∧
    (execution.starts = true ∧ s.Connects execution →
      ∃ c, (s.executeGraphSubscription execution).subscriptions = s.subscriptions ++ [c] ∧
        (s.executeGraphSubscription execution).endpointOf c = some (endpointInForce events) ∧
        t.endpointOf c = some (endpointInForce events) ∧
        ∀ before event after old, events = before ++ event :: after → event.configures = true →
          Transition.run step (constructed clientInfo proxyserverport proxyuserpw useragent) before = some old →
          old.connections.length ≤ c) := by
  have start := constructed_fresh clientInfo proxyserverport proxyuserpw useragent
  refine ⟨subscriptions_unstarted, ?_⟩
  rintro ⟨starts, connects⟩
  obtain ⟨c, u, used⟩ := connectionFor_of_connects connects
  obtain ⟨added, same⟩ := subscriptions_started starts used
  have endpoint : (s.executeGraphSubscription execution).endpointOf c = some (endpointInForce events) := by
    obtain ⟨-, -, -, created, -⟩ := (start.run succeed ran).connectionFor used
    rw [same, created, endpoint_run succeed ran]
    rfl
  refine ⟨c, added, endpoint, endpointOf_run endpoint ranLater, ?_⟩
  intro before event after old split configures reached
  subst split
  obtain ⟨succeedBefore, succeedLater⟩ := Transition.meets_append.mp succeed
  obtain ⟨succeedEvent, succeedAfter⟩ := succeedLater old reached
  rw [Transition.run_append, reached, Option.bind_some] at ran
  obtain ⟨next, taken, ran⟩ := Option.bind_eq_some_iff.mp ran
  have outdated := (start.run succeedBefore reached).configures configures succeedEvent taken
  exact ((outdated.run (succeedAfter next taken) ran).connectionFor used).2.1

def endpointChange : List EndpointEvent :=
  [.setUnixEndpoint [1] (fun _ => .succeeds) false, .executeGraphSubscription ⟨true, false, true⟩,
    .setUnixEndpoint [2] (fun _ => .succeeds) false]

theorem succeed_endpointChange (s : GraphClient) : Transition.Meets SetoptsSucceed step s endpointChange :=
  Transition.meets_of_forall (by simp [endpointChange, SetoptsSucceed])

/-- The next subscription is on a second connection, to the new socket. -/
theorem subscription_fresh_endpointChange : ∃ s,
    Transition.run step (constructed ⟨[], ⟨0, by decide⟩, [], [], [], [], []⟩ [] [] []) endpointChange = some s ∧
    s.subscriptions = [0] ∧
    ∃ c, (s.executeGraphSubscription ⟨true, false, true⟩).subscriptions = [0, c] ∧
      (s.executeGraphSubscription ⟨true, false, true⟩).endpointOf c = some [2] := by
  have connects (s : GraphClient) : (⟨true, false, true⟩ : Execution).starts = true ∧
      s.Connects ⟨true, false, true⟩ := ⟨rfl, .inl rfl⟩
  refine ⟨_, rfl, rfl, ?_⟩
  obtain ⟨c, added, endpoint, -⟩ :=
    (subscription_fresh (succeed_endpointChange _) rfl (show Transition.run step _ [] = _ from rfl)).2
      (connects _)
  exact ⟨c, added, endpoint⟩

end GraphClient
end MujinClient
