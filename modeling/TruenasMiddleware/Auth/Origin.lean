import TruenasMiddleware.RateLimit.Cache

/-! The origin of a connection, `utils/origin.py`: `ConnectionOrigin.create` believes the headers
of a request when some socket of root or www-data has the remote end that they name, and
`ha_permission` logs in a connection whose origin is the other controller. -/

namespace TruenasMiddleware.Auth

open RateLimit (AddressFamily HA_HEARTBEAT_IPS)

structure Origin extends RateLimit.ConnectionOrigin where
  locAddr : Option String := none
  locPort : Option Int := none
  pid : Option Int := none
  uid : Option Int := none
  gid : Option Int := none
  loginuid : Option Int := none
  ssl : Bool := false

structure SocketInfo where
  src : String
  sport : Int
  dst : String
  dport : Int
  uid : Int
deriving DecidableEq

/-- The accepted socket of a request. `getpeername` of an IPv6 socket has four values. -/
inductive Sock
  | unix (pid uid gid : Int)
  | inet (peer : String × Int)
  | inet6 (peer : String × Int × Int × Int)

structure Request where
  /-- `None` once the connection is gone. -/
  transport : Option Sock
  headers : String → Option String

/-- What is outside: `int`, the login uid of a process and the socket diagnostics. -/
structure System where
  int : String → Option Int
  getLoginUid : Int → Int
  getInetDiag : AddressFamily → List SocketInfo

/-- A `ValueError` that is not caught. -/
inductive Raised
  | valueError

def UIDS_TO_CHECK : List Int := [33, 0]

variable (system : System)

def forwarded (headers : String → Option String) : Option (String × Int × Bool) := do
  let ra ← headers "X-Real-Remote-Addr"
  let rp ← (headers "X-Real-Remote-Port").bind system.int
  return (ra, rp, decide ((headers "X-Https").getD "" = "on"))

def familyOf (address : String) : AddressFamily :=
  if ':' ∈ address.toList then .inet6 else .inet

def SocketInfo.remote (info : SocketInfo) : String × Int := (info.dst, info.dport)

def findSocket (family : AddressFamily) (remote : String × Int)
    (checkUids ssl : Bool) : Option Origin :=
  ((system.getInetDiag family).find? fun info =>
      decide (info.remote = remote) && (!checkUids || decide (info.uid ∈ UIDS_TO_CHECK))).map
    fun info =>
      { family := family
        locAddr := some info.src
        locPort := some info.sport
        remAddr := some info.dst
        remPort := some info.dport
        ssl := ssl }

/-- `get_tcp_ip_info`, for a socket whose `getpeername` is a pair or is not. -/
def getTcpIpInfo (family : AddressFamily) (peer : Option (String × Int))
    (headers : String → Option String) : Except Raised (Option Origin) :=
  match forwarded system headers with
  | some (ra, rp, ssl) => .ok (findSocket system (familyOf ra) (ra, rp) true ssl)
  | none =>
    match peer with
    | some peer => .ok (findSocket system family peer false false)
    | none => .error .valueError

def Origin.create (request : Request) : Except Raised (Option Origin) :=
  match request.transport with
  | none => .ok none
  | some (.unix pid uid gid) =>
    .ok (some { family := .unix, pid := some pid, uid := some uid, gid := some gid,
                loginuid := some (system.getLoginUid pid) })
  | some (.inet peer) => getTcpIpInfo system .inet (some peer) request.headers
  | some (.inet6 _) => getTcpIpInfo system .inet6 none request.headers

def haPermission (authenticated : Bool) : Option Origin → Bool
  | none => false
  | some origin => !authenticated && origin.isHaConnection

/-- A request of a local process, sent over TCP from a socket that neither root nor www-data
owns. Both ends of the connection are open, so both are listed. -/
structure LocalRequest where
  headers : String → Option String
  own : SocketInfo
  accepted : SocketInfo
  ownListed : own ∈ system.getInetDiag .inet
  acceptedListed : accepted ∈ system.getInetDiag .inet
  ends : (accepted.src, accepted.sport, accepted.dst, accepted.dport) =
    (own.dst, own.dport, own.src, own.sport)
  unprivileged : own.uid ∉ UIDS_TO_CHECK

variable {system : System}

namespace LocalRequest

variable (request : LocalRequest system)

def peer : String × Int := (request.own.src, request.own.sport)

def toRequest : Request :=
  ⟨some (.inet request.peer), request.headers⟩

/-- Whatever origin the request is given has the request's own peer as its remote end, and
`ha_permission` does not log it in. -/
def Genuine : Prop :=
  ∀ origin, Origin.create system request.toRequest = .ok (some origin) →
    (origin.remAddr = some request.peer.1 ∧ origin.remPort = some request.peer.2) ∧
      haPermission false (some origin) = false

end LocalRequest

def Heartbeat (remote : String × Int) : Prop :=
  remote.1 ∈ HA_HEARTBEAT_IPS ∧ remote.2 ≤ 1024

/-- Without the headers the peer is not a heartbeat address with a port up to 1024. With them, no
socket of root or www-data has the remote end that they name, unless that is the peer and not
such an address. -/
def LocalRequest.Unforged (request : LocalRequest system) : Prop :=
  match forwarded system request.headers with
  | none => ¬ Heartbeat request.peer
  | some (ra, rp, _) =>
    ∀ info ∈ system.getInetDiag (familyOf ra), info.remote = (ra, rp) →
      info.uid ∈ UIDS_TO_CHECK → (ra, rp) = request.peer ∧ ¬ Heartbeat request.peer

theorem familyOf_mem (address : String) : familyOf address ∈ [AddressFamily.inet, .inet6] := by
  rw [familyOf]
  split <;> decide

section Find

variable {family : AddressFamily} {remote : String × Int} {checkUids ssl : Bool} {origin : Origin}

theorem findSocket_isSome : (findSocket system family remote checkUids ssl).isSome ↔
    ∃ info ∈ system.getInetDiag family, info.remote = remote ∧
      (checkUids = true → info.uid ∈ UIDS_TO_CHECK) := by
  rw [findSocket, Option.isSome_map, List.find?_isSome]
  cases checkUids <;> simp

theorem findSocket_remote (found : findSocket system family remote checkUids ssl = some origin) :
    origin.family = family ∧ origin.remAddr = some remote.1 ∧ origin.remPort = some remote.2 := by
  obtain ⟨info, first, rfl⟩ := Option.map_eq_some_iff.mp found
  have accepted := List.find?_some first
  have eq : info.remote = remote := of_decide_eq_true (Bool.and_eq_true_iff.mp accepted).1
  exact ⟨rfl, congrArg (some ∘ Prod.fst) eq, congrArg (some ∘ Prod.snd) eq⟩

theorem haPermission_false_iff (found : findSocket system family remote checkUids ssl = some origin)
    (tcp : family ∈ [AddressFamily.inet, .inet6]) :
    haPermission false (some origin) = false ↔ ¬ Heartbeat remote := by
  obtain ⟨rfl, address, port⟩ := findSocket_remote found
  simp only [haPermission, RateLimit.ConnectionOrigin.isHaConnection, address, port, tcp,
    Heartbeat, Option.any_some, decide_true, Bool.true_and, Bool.not_false, Bool.and_eq_false_iff,
    decide_eq_false_iff_not]
  tauto

theorem genuine_iff_of_create {request : LocalRequest system}
    (created : Origin.create system request.toRequest =
      .ok (findSocket system family remote checkUids ssl))
    (tcp : family ∈ [AddressFamily.inet, .inet6]) :
    request.Genuine ↔ ((findSocket system family remote checkUids ssl).isSome →
      remote = request.peer ∧ ¬ Heartbeat request.peer) := by
  rw [LocalRequest.Genuine, created]
  cases found : findSocket system family remote checkUids ssl with
  | none => simp
  | some origin =>
    obtain ⟨-, address, port⟩ := findSocket_remote found
    have login := haPermission_false_iff found tcp
    simp only [Except.ok.injEq, Option.some.injEq, forall_eq', address, port, login,
      Option.isSome_some, forall_const, ← Prod.ext_iff]
    constructor
    all_goals
      rintro ⟨eq, other⟩
      exact ⟨eq, eq ▸ other⟩

end Find

theorem LocalRequest.accepted_remote (request : LocalRequest system) :
    request.accepted.remote = request.peer := by
  have ends := request.ends
  simp only [Prod.mk.injEq] at ends
  exact Prod.ext ends.2.2.1 ends.2.2.2

/-- The origin of a local process's request is its own, and it is not logged in as the other
controller, exactly when its headers and its own port do not make it one. -/
theorem origin_genuine_iff (system : System) (request : LocalRequest system) :
    request.Genuine ↔ request.Unforged := by
  rw [LocalRequest.Unforged]
  cases headers : forwarded system request.headers with
  | none =>
    have created : Origin.create system request.toRequest =
        .ok (findSocket system .inet request.peer false false) := by
      simp [Origin.create, LocalRequest.toRequest, getTcpIpInfo, headers]
    have listed : (findSocket system .inet request.peer false false).isSome :=
      findSocket_isSome.mpr
        ⟨request.accepted, request.acceptedListed, request.accepted_remote, nofun⟩
    rw [genuine_iff_of_create created (by decide)]
    simp [listed]
  | some named =>
    obtain ⟨ra, rp, ssl⟩ := named
    have created : Origin.create system request.toRequest =
        .ok (findSocket system (familyOf ra) (ra, rp) true ssl) := by
      simp [Origin.create, LocalRequest.toRequest, getTcpIpInfo, headers]
    rw [genuine_iff_of_create created (familyOf_mem ra), findSocket_isSome]
    simp only [forall_exists_index, and_imp, forall_const]

/-- The other controller is connected from port 700 to the middleware, which runs as root. -/
def controllers : System where
  int text := if text = "700" then some 700 else none
  getLoginUid _ := 0
  getInetDiag
    | .inet =>
      [⟨"169.254.10.1", 6000, "169.254.10.2", 700, 0⟩,
        ⟨"127.0.0.1", 50000, "127.0.0.1", 6000, 3000⟩, ⟨"127.0.0.1", 6000, "127.0.0.1", 50000, 0⟩,
        ⟨"169.254.10.1", 1024, "169.254.10.1", 6000, 3000⟩,
        ⟨"169.254.10.1", 6000, "169.254.10.1", 1024, 0⟩]
    | _ => []

/-- A user's process that names the other controller's connection in its headers. -/
def forger : LocalRequest controllers where
  headers name :=
    if name = "X-Real-Remote-Addr" then some "169.254.10.2"
    else if name = "X-Real-Remote-Port" then some "700" else none
  own := ⟨"127.0.0.1", 50000, "127.0.0.1", 6000, 3000⟩
  accepted := ⟨"127.0.0.1", 6000, "127.0.0.1", 50000, 0⟩
  ownListed := by decide
  acceptedListed := by decide
  ends := rfl
  unprivileged := by decide

/-- A user's process that connects to the heartbeat address from port 1024, which needs no
privilege. -/
def lowPort : LocalRequest controllers where
  headers _ := none
  own := ⟨"169.254.10.1", 1024, "169.254.10.1", 6000, 3000⟩
  accepted := ⟨"169.254.10.1", 6000, "169.254.10.1", 1024, 0⟩
  ownListed := by decide
  acceptedListed := by decide
  ends := rfl
  unprivileged := by decide

theorem origin_forged : (∃ origin, Origin.create controllers forger.toRequest = .ok (some origin) ∧
      origin.remAddr ≠ some forger.peer.1 ∧ haPermission false (some origin) = true) ∧
    ∃ origin, Origin.create controllers lowPort.toRequest = .ok (some origin) ∧
      haPermission false (some origin) = true := by
  refine ⟨⟨_, rfl, ?_, ?_⟩, _, rfl, ?_⟩ <;> decide

end TruenasMiddleware.Auth
