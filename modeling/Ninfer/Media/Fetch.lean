/-
  The download of remote media: `parse_url`, `resolve_public`, `curl_write` and `fetch_url` of
  `product/media_acquire/acquire.cpp`.

  The state is the log of the requests that were handed to libcurl. What the world answers is
  chosen by an adversary: every DNS answer list, every response, every clock and every failed
  allocation is a field of `Hop`, one for each turn of the redirect loop. Of libcurl and of the C
  library only `Outside` is assumed: a URL has the parts that `curl_url` finds in it, and a request
  is sent to the address of its `CURLOPT_RESOLVE` entry.
-/
import Ninfer.Lib.Eff
import Ninfer.Media.Address

namespace Ninfer.Media

open Lib

/-! ## The policy and its control -/

inductive ErrorKind where
  | budgetExceeded
  | remoteUnavailable
  | remoteTimeout
  | deadlineExceeded
  | cancelled

/-- `Error(kind, message)`. -/
def ErrorKind.error (kind : ErrorKind) (message : String) : Fault := .custom kind.ctorIdx message

/-- `std::runtime_error(message)`. -/
def runtimeError (message : String) : Fault := .custom 5 message

/-- The part of `Policy` that a download reads. Without a deadline `deadline` is empty; times are
    nanoseconds. -/
structure Policy where
  maxBytes : Nat := 268435456
  connectTimeoutMs : Int := 5000
  timeoutMs : Int := 60000
  maxRedirects : Int := 3
  allowRemote : Bool := true
  allowPrivateNetwork : Bool := false
  deadline : Option Int := none
  cancellable : Bool := false

/-- What one look at the caller and at the clock finds. -/
structure Reading where
  cancelled : Bool := false
  now : Int := 0

section Control

variable {σ : Type}

def checkControl (policy : Policy) (reading : Reading) : Eff σ Unit := do
  Eff.when (policy.cancellable = true ∧ reading.cancelled = true)
    (Eff.raise (ErrorKind.cancelled.error "media acquisition was cancelled"))
  Eff.when (∃ deadline ∈ policy.deadline, deadline ≤ reading.now)
    (Eff.raise (ErrorKind.deadlineExceeded.error "media acquisition exceeded request deadline"))

def boundedTimeoutMs (policy : Policy) (check : Reading) (now : Int) (configured : Int) :
    Eff σ Int :=
  match policy.deadline with
  | none => pure configured
  | some deadline => do
    checkControl policy check
    pure (min configured (max 1 ((deadline - now).tdiv 1000000)))

end Control

/-! ## The code outside -/

/-- The parts that `curl_url_get` finds in a URL; a part that it does not find is empty. -/
structure CurlUrl where
  scheme : String
  host : String
  port : String
  user : String

/-- The entry that pins `host:port` to an address. -/
def resolveEntry (host port ip : String) : String :=
  host ++ ":" ++ port ++ ":" ++ if ':' ∈ ip.toList then "[" ++ ip ++ "]" else ip

/-- What is assumed of libcurl and of the C library. -/
structure Outside where
  /-- The parser of URLs; `none` where `curl_url_set` fails. -/
  curlUrl : String → Option CurlUrl
  /-- `inet_ntop`; `none` where it fails. -/
  ntop : SockAddr → Option String
  /-- The address that libcurl connects to for a host and a port, given a resolve entry. -/
  dial : String → String → String → Option SockAddr
  ntop_inet : ∀ a, (ntop (.inet a)).isSome = true
  ntop_ne_empty : ∀ a, ntop a ≠ some ""
  dial_entry : ∀ host port a ip, ntop a = some ip →
    dial host port (resolveEntry host port ip) = some a

/-- A request as it is handed to libcurl. -/
structure Request where
  url : String
  resolve : String
  connectTimeoutMs : Int
  timeoutMs : Int
  maxFileSize : Nat

/-- The address that a request goes to. -/
def Outside.target (o : Outside) (r : Request) : Option SockAddr :=
  (o.curlUrl r.url).bind fun url => o.dial url.host url.port r.resolve

/-! ## URLs and names -/

structure UrlParts where
  scheme : String
  host : String
  port : String

/-- `handle` says whether `curl_url` returned a handle. -/
def parseUrl (o : Outside) (handle : Bool) (value : String) : Except Fault UrlParts :=
  if handle = false then .error (.invalidArgument "invalid media URL")
  else
    match o.curlUrl value with
    | none => .error (.invalidArgument "invalid media URL")
    | some url =>
      if (url.scheme ≠ "http" ∧ url.scheme ≠ "https") ∨ url.host = "" ∨ url.port = "" ∨
          url.user ≠ "" then
        .error (.invalidArgument "media URL must be credential-free HTTP(S)")
      else .ok { scheme := url.scheme, host := url.host, port := url.port }

def SockAddr.isInet : SockAddr → Bool
  | .inet _ => true
  | _ => false

/-- The loop of `resolve_public`: the first IPv4 address that may be used, or else the last
    address. -/
def selectAddress (o : Outside) (allowPrivate : Bool) : String → List SockAddr → String
  | selected, [] => selected
  | selected, a :: rest =>
    if allowPrivate = false ∧ privateAddress a = true then
      selectAddress o allowPrivate selected rest
    else
      match o.ntop a with
      | none => selectAddress o allowPrivate selected rest
      | some text => if a.isInet then text else selectAddress o allowPrivate text rest

def disallowed : Fault :=
  .invalidArgument "media URL resolves only to disallowed network addresses"

/-- `answer` is what `getaddrinfo` returns: the addresses, or the text of its error. -/
def resolvePublic (o : Outside) (answer : Except String (List SockAddr)) (allowPrivate : Bool) :
    Except Fault String :=
  match answer with
  | .error what =>
    .error (ErrorKind.remoteUnavailable.error ("failed to resolve media URL host: " ++ what))
  | .ok addresses =>
    let selected := selectAddress o allowPrivate "" addresses
    if selected = "" then .error disallowed else .ok selected

/-! ## The transfer -/

structure CurlBuffer where
  bytes : List UInt8 := []
  limit : Nat

/-- One call of the write callback. -/
structure Chunk where
  size : Nat
  count : Nat
  data : List UInt8

/-- How many bytes were taken, and the buffer. -/
def curlWrite (out : CurlBuffer) (chunk : Chunk) : Nat × CurlBuffer :=
  if chunk.size ≠ 0 ∧ chunk.count > 18446744073709551615 / chunk.size then (0, out)
  else
    let amount := chunk.size * chunk.count
    if amount > out.limit - min out.limit out.bytes.length then (0, out)
    else (amount, { out with bytes := out.bytes ++ chunk.data.take amount })

inductive CurlCode where
  | ok
  | operationTimedout
  | filesizeExceeded
  | writeError
  | other (code : Nat)
  deriving DecidableEq

/-- What comes back for a request: the calls of the write callback, then a result. -/
structure Transfer where
  chunks : List Chunk := []
  code : CurlCode := .ok
  /-- `curl_easy_strerror` of the result. -/
  what : String := ""
  status : Int := 0
  redirectUrl : Option String := none

/-- The write callback on one chunk after the other; libcurl gives up after a short write. -/
def receive : CurlBuffer → List Chunk → Bool × CurlBuffer
  | out, [] => (true, out)
  | out, chunk :: chunks =>
    let (written, out) := curlWrite out chunk
    if written = chunk.size * chunk.count then receive out chunks else (false, out)

/-- `curl_easy_perform`. -/
def perform (request : Request) (transfer : Transfer) (buffer : CurlBuffer) :
    Eff (List Request) (CurlCode × CurlBuffer) := do
  Eff.modify fun log => log ++ [request]
  let (taken, buffer) := receive buffer transfer.chunks
  pure (if taken then transfer.code else .writeError, buffer)

/-! ## The redirect loop -/

/-- What the world answers in one turn of the loop. `reading k` is the turn's `k`-th look at the
    caller and the clock. -/
structure Hop where
  reading : Nat → Reading := fun _ => {}
  urlHandle : Bool := true
  addresses : Except String (List SockAddr)
  listEntry : Bool := true
  curlHandle : Bool := true
  transfer : Transfer

/-- What a turn makes of its response: the bytes, or the next URL. -/
def concludeHop (policy : Policy) (hop : Hop) (redirect : Int) (code : CurlCode)
    (buffer : CurlBuffer) : Eff (List Request) (List UInt8 ⊕ String) := do
  if code ≠ .ok then
    checkControl policy (hop.reading 6)
    if code = .operationTimedout then
      Eff.raise (ErrorKind.remoteTimeout.error ("media URL fetch timed out: " ++ hop.transfer.what))
    else if code = .filesizeExceeded ∨ code = .writeError then
      Eff.raise (ErrorKind.budgetExceeded.error "media URL exceeds byte limit")
    else
      Eff.raise (ErrorKind.remoteUnavailable.error
        ("failed to fetch media URL: " ++ hop.transfer.what))
  else if 200 ≤ hop.transfer.status ∧ hop.transfer.status < 300 then
    checkControl policy (hop.reading 6)
    pure (.inl buffer.bytes)
  else if hop.transfer.status < 300 ∨ 400 ≤ hop.transfer.status ∨
      redirect = policy.maxRedirects then
    Eff.raise (ErrorKind.remoteUnavailable.error
      ("media URL returned HTTP " ++ toString hop.transfer.status))
  else
    match hop.transfer.redirectUrl with
    | none =>
      Eff.raise (ErrorKind.remoteUnavailable.error "media URL redirect has no location")
    | some next =>
      if next = "" then
        Eff.raise (ErrorKind.remoteUnavailable.error "media URL redirect has no location")
      else pure (.inr next)

/-- One turn of the loop. -/
def fetchHop (o : Outside) (policy : Policy) (hop : Hop) (redirect : Int) (url : String) :
    Eff (List Request) (List UInt8 ⊕ String) := do
  checkControl policy (hop.reading 0)
  let parts ← Eff.answer (parseUrl o hop.urlHandle url)
  let ip ← Eff.answer (resolvePublic o hop.addresses policy.allowPrivateNetwork)
  checkControl policy (hop.reading 1)
  Eff.require (hop.listEntry = true) .badAlloc
  Eff.require (hop.curlHandle = true) (runtimeError "failed to create libcurl handle")
  let connectTimeoutMs ←
    boundedTimeoutMs policy (hop.reading 2) (hop.reading 3).now policy.connectTimeoutMs
  let timeoutMs ← boundedTimeoutMs policy (hop.reading 4) (hop.reading 5).now policy.timeoutMs
  let request : Request :=
    { url
      resolve := resolveEntry parts.host parts.port ip
      connectTimeoutMs
      timeoutMs
      maxFileSize := policy.maxBytes }
  let (code, buffer) ← perform request hop.transfer { limit := policy.maxBytes }
  concludeHop policy hop redirect code buffer

/-- At most `turns` more turns of the loop, from the turn `redirect` on. -/
def fetchFrom (o : Outside) (policy : Policy) (hops : Nat → Hop) :
    Nat → Nat → String → Eff (List Request) (List UInt8)
  | 0, _, _ =>
    Eff.raise (ErrorKind.remoteUnavailable.error "too many media URL redirects")
  | turns + 1, redirect, url => do
    match ← fetchHop o policy (hops redirect) redirect url with
    | .inl bytes => pure bytes
    | .inr next => fetchFrom o policy hops turns (redirect + 1) next

/-- `initialized` says whether libcurl was, or could be, initialized. -/
def fetchUrl (o : Outside) (initialized : Bool) (hops : Nat → Hop) (url : String)
    (policy : Policy) : Eff (List Request) (List UInt8) := do
  Eff.require (policy.allowRemote = true) (.invalidArgument "remote media URLs are disabled")
  Eff.require (initialized = true) (runtimeError "failed to initialize libcurl")
  fetchFrom o policy hops (policy.maxRedirects + 1).toNat 0 url

/-! ## What each part answers -/

variable {o : Outside} {policy : Policy} {hop : Hop}

theorem error_ne_disallowed (kind : ErrorKind) (message : String) :
    kind.error message ≠ disallowed := Fault.noConfusion

/-- The caller has cancelled, or the deadline is over. -/
def Policy.Stops (policy : Policy) (reading : Reading) : Prop :=
  (policy.cancellable = true ∧ reading.cancelled = true) ∨
    ∃ deadline ∈ policy.deadline, deadline ≤ reading.now

section Control

variable {σ α : Type} {s : σ} {P : Post σ α}

/-- A look at the caller and the clock never throws what a refused host does. -/
theorem wp_checkControl {f : Unit → Eff σ α} {policy : Policy} {reading : Reading}
    (hthrow : policy.Stops reading → ∀ e, e ≠ disallowed → P.throw e s)
    (hok : ¬ policy.Stops reading → wp (f ()) P s) :
    wp (checkControl policy reading >>= f) P s := by
  unfold checkControl
  simp only [wp_bind, wp_when, wp_raise]
  exact ⟨fun h => hthrow (.inl h) _ (error_ne_disallowed _ _), fun hcancel =>
    ⟨fun h => hthrow (.inr h) _ (error_ne_disallowed _ _), fun hlate =>
      hok (not_or.mpr ⟨hcancel, hlate⟩)⟩⟩

theorem wp_boundedTimeoutMs {f : Int → Eff σ α} {policy : Policy} {check : Reading}
    {now configured : Int}
    (hthrow : policy.deadline ≠ none → policy.Stops check → ∀ e, e ≠ disallowed → P.throw e s)
    (hok : (policy.deadline ≠ none → ¬ policy.Stops check) → ∀ ms, wp (f ms) P s) :
    wp (boundedTimeoutMs policy check now configured >>= f) P s := by
  unfold boundedTimeoutMs
  split
  next hnone => exact hok (fun h => absurd hnone h) _
  next deadline hsome =>
    have hne : policy.deadline ≠ none := hsome ▸ Option.some_ne_none _
    rw [wp_bind]
    exact wp_checkControl (hthrow hne) fun h => hok (fun _ => h) _

end Control

variable {handle allow : Bool} {value selected : String}

theorem parseUrl_ok {parts : UrlParts} (h : parseUrl o handle value = .ok parts) :
    ∃ url, o.curlUrl value = some url ∧ url.host = parts.host ∧ url.port = parts.port := by
  unfold parseUrl at h
  split_ifs at h
  split at h
  · cases h
  · rename_i url hurl
    split_ifs at h
    cases h
    exact ⟨url, hurl, rfl, rfl⟩

theorem parseUrl_error {e : Fault} (h : parseUrl o handle value = .error e) : e ≠ disallowed := by
  unfold parseUrl at h
  split_ifs at h
  · cases h
    decide
  · split at h
    · cases h
      decide
    · split_ifs at h
      cases h
      decide

/-! ## The address that is selected -/

/-- Whether `resolve_public` may select an address. -/
def usable (o : Outside) (allowPrivate : Bool) (a : SockAddr) : Bool :=
  (allowPrivate || !privateAddress a) && (o.ntop a).isSome

/-- The first IPv4 address that may be selected, or else the last address that may be. -/
def pick (o : Outside) (allowPrivate : Bool) (addresses : List SockAddr) : Option SockAddr :=
  ((addresses.filter (usable o allowPrivate)).find? (·.isInet)).or
    (addresses.filter (usable o allowPrivate)).getLast?

variable {addresses : List SockAddr} {a : SockAddr}

theorem pick_some (h : pick o allow addresses = some a) : usable o allow a = true := by
  have hmem : a ∈ addresses.filter (usable o allow) := by
    rcases Option.or_eq_some_iff.mp h with h | ⟨-, h⟩
    · exact List.mem_of_find?_eq_some h
    · exact List.mem_of_getLast? h
  exact (List.mem_filter.mp hmem).2

theorem pick_none (h : pick o allow addresses = none) (ha : a ∈ addresses) :
    usable o allow a = false := by
  have hnil := List.getLast?_eq_none_iff.mp (Option.or_eq_none_iff.mp h).2
  exact Bool.eq_false_of_not_eq_true (List.filter_eq_nil_iff.mp hnil a ha)

theorem pick_cons_of_not_usable (h : usable o allow a = false) :
    pick o allow (a :: addresses) = pick o allow addresses := by
  unfold pick
  rw [List.filter_cons_of_neg (by simp [h])]

theorem pick_cons_of_usable (h : usable o allow a = true) : pick o allow (a :: addresses) =
      some (if a.isInet then a else (pick o allow addresses).getD a) := by
  unfold pick
  rw [List.filter_cons_of_pos h, List.find?_cons, List.getLast?_cons]
  cases a.isInet with
  | true => rfl
  | false =>
    cases (addresses.filter (usable o allow)).find? (·.isInet) <;> rfl

/-- The loop of `resolve_public` selects that address. -/
theorem selectAddress_eq (o : Outside) (allow : Bool) (selected : String)
    (addresses : List SockAddr) : selectAddress o allow selected addresses =
      ((pick o allow addresses).bind o.ntop).getD selected := by
  induction addresses generalizing selected with
  | nil => rfl
  | cons a rest ih =>
    rw [selectAddress]
    cases hu : usable o allow a with
    | false =>
      rw [pick_cons_of_not_usable hu, ← ih]
      by_cases hprivate : allow = false ∧ privateAddress a = true
      · rw [if_pos hprivate]
      · rw [if_neg hprivate]
        cases htext : o.ntop a with
        | none => rfl
        | some text =>
          exact absurd hu (by cases allow <;> simp_all [usable])
    | true =>
      have hpublic : ¬ (allow = false ∧ privateAddress a = true) := by
        rintro ⟨rfl, hprivate⟩
        simp [usable, hprivate] at hu
      obtain ⟨text, htext⟩ := Option.isSome_iff_exists.mp (Bool.and_eq_true_iff.mp hu).2
      rw [if_neg hpublic, pick_cons_of_usable hu, Option.bind_some]
      simp only [htext]
      split_ifs
      · rw [htext]
        rfl
      · rw [ih]
        cases hpick : pick o allow rest with
        | none => simp [htext]
        | some b =>
          have hb := (Bool.and_eq_true_iff.mp (pick_some hpick)).2
          obtain ⟨text', htext'⟩ := Option.isSome_iff_exists.mp hb
          simp [htext']

theorem resolvePublic_of_pick {ip : String} (h : pick o allow addresses = some a)
    (htext : o.ntop a = some ip) : resolvePublic o (.ok addresses) allow = .ok ip := by
  unfold resolvePublic
  dsimp only
  rw [selectAddress_eq, h, Option.bind_some, htext, Option.getD_some,
    if_neg fun hempty : ip = "" => o.ntop_ne_empty a (hempty ▸ htext)]

theorem resolvePublic_of_none (h : pick o allow addresses = none) :
    resolvePublic o (.ok addresses) allow = .error disallowed := by
  unfold resolvePublic
  dsimp only
  rw [selectAddress_eq, h]
  rfl

/-- An address that is selected is internal only if no test finds it. -/
theorem internal_iff_of_pick (h : pick o false addresses = some a) :
    a.Internal ↔ a.Untested := by
  have hu := pick_some h
  exact SockAddr.internal_iff_untested (by simp_all [usable])

/-- Where no address is selected, the IPv4 addresses are taken for internal ones. -/
theorem internal_iff_of_none {a : InAddr} (h : pick o allow addresses = none)
    (ha : .inet a ∈ addresses) : a.Internal ↔ ¬ a.Misread := by
  have hu := pick_none h ha
  have hsome := o.ntop_inet a
  exact InAddr.internal_iff_not_misread (by simp_all [usable, privateAddress])

/-! ## The buffer -/

theorem curlWrite_length {out : CurlBuffer} (h : out.bytes.length ≤ out.limit) (chunk : Chunk) :
    (curlWrite out chunk).2.bytes.length ≤ out.limit ∧
      (curlWrite out chunk).2.limit = out.limit := by
  unfold curlWrite
  dsimp only
  split_ifs with hoverflow hfull
  · exact ⟨h, rfl⟩
  · exact ⟨h, rfl⟩
  · refine ⟨?_, rfl⟩
    have htake := List.length_take_le (chunk.size * chunk.count) chunk.data
    rw [List.length_append]
    omega

theorem receive_length {out : CurlBuffer} (h : out.bytes.length ≤ out.limit)
    (chunks : List Chunk) : (receive out chunks).2.bytes.length ≤ out.limit := by
  induction chunks generalizing out with
  | nil => exact h
  | cons chunk chunks ih =>
    have hstep := curlWrite_length h chunk
    unfold receive
    dsimp only
    split_ifs
    · have hle : (curlWrite out chunk).2.bytes.length ≤ (curlWrite out chunk).2.limit := by
        rw [hstep.2]
        exact hstep.1
      exact (ih hle).trans_eq hstep.2
    · exact hstep.1

/-! ## One turn -/

/-- A turn gets as far as the look-up of its host. -/
def Asks (o : Outside) (policy : Policy) (hop : Hop) (url : String) : Prop :=
  ¬ policy.Stops (hop.reading 0) ∧ ∃ parts, parseUrl o hop.urlHandle url = .ok parts

/-- Nothing keeps a turn that has an address from sending its request. -/
def Sends (policy : Policy) (hop : Hop) : Prop :=
  ¬ policy.Stops (hop.reading 1) ∧ hop.listEntry = true ∧ hop.curlHandle = true ∧
    (policy.deadline ≠ none → ¬ policy.Stops (hop.reading 2) ∧ ¬ policy.Stops (hop.reading 4))

/-- The result of a turn's transfer. -/
def Hop.code (hop : Hop) (policy : Policy) : CurlCode :=
  if (receive { limit := policy.maxBytes } hop.transfer.chunks).1 then hop.transfer.code
  else .writeError

/-- The response of a turn sends the download on to another URL. -/
def Redirects (policy : Policy) (hop : Hop) (redirect : Int) (next : String) : Prop :=
  hop.code policy = .ok ∧ 300 ≤ hop.transfer.status ∧ hop.transfer.status < 400 ∧
    redirect ≠ policy.maxRedirects ∧ hop.transfer.redirectUrl = some next ∧ next ≠ ""

theorem wp_concludeHop {redirect : Int} {buffer : CurlBuffer} {t : List Request}
    {P : Post (List Request) (List UInt8 ⊕ String)}
    (hends : (∀ next, ¬ Redirects policy hop redirect next) →
      (∀ e, e ≠ disallowed → P.throw e t) ∧ P.ok (.inl buffer.bytes) t)
    (hnext : ∀ next, Redirects policy hop redirect next → P.ok (.inr next) t) :
    wp (concludeHop policy hop redirect (hop.code policy) buffer) P t := by
  have hfail : (∀ next, ¬ Redirects policy hop redirect next) →
      ∀ kind message, P.throw (ErrorKind.error kind message) t := fun h kind message =>
    (hends h).1 _ (error_ne_disallowed kind message)
  unfold concludeHop
  rw [wp_ite]
  refine ⟨fun hcode => ?_, fun hcode => ?_⟩
  · have hno : ∀ next, ¬ Redirects policy hop redirect next := fun _ h => hcode h.1
    refine wp_checkControl (fun _ => (hends hno).1) fun _ => ?_
    simp [wp_ite, wp_raise, hfail hno]
  · rw [wp_ite]
    refine ⟨fun hstatus => ?_, fun hstatus => ?_⟩
    · have hno : ∀ next, ¬ Redirects policy hop redirect next := fun _ h => by
        have := h.2.1
        omega
      exact wp_checkControl (fun _ => (hends hno).1) fun _ => (hends hno).2
    · rw [wp_ite]
      refine ⟨fun hlast => hfail (fun _ h => ?_) _ _, fun hlast => ?_⟩
      · obtain ⟨-, hlow, hhigh, hne, -⟩ := h
        omega
      · cases hurl : hop.transfer.redirectUrl with
        | none => exact hfail (fun _ h => by simp [Redirects, hurl] at h) _ _
        | some next =>
          rw [wp_ite]
          refine ⟨fun hempty => hfail (fun v h => ?_) _ _, fun hne => hnext next ?_⟩
          · obtain ⟨-, -, -, -, hv, hv'⟩ := h
            rw [hurl] at hv
            exact hv' (Option.some.inj hv ▸ hempty)
          · exact ⟨not_not.mp hcode, by omega, by omega, fun h => hlast (.inr (.inr h)), hurl, hne⟩

/-- Every way in which a turn ends. -/
theorem wp_fetchHop {o : Outside} {policy : Policy} {hop : Hop} {redirect : Int} {url : String}
    {log : List Request} {P : Post (List Request) (List UInt8 ⊕ String)}
    (hfails : ¬ (Asks o policy hop url ∧ ∃ addresses, hop.addresses = .ok addresses) →
      ∀ e, e ≠ disallowed → P.throw e log)
    (hrefuses : ∀ addresses, Asks o policy hop url → hop.addresses = .ok addresses →
      pick o policy.allowPrivateNetwork addresses = none → P.throw disallowed log)
    (hholds : ∀ addresses a, Asks o policy hop url → hop.addresses = .ok addresses →
      pick o policy.allowPrivateNetwork addresses = some a → ¬ Sends policy hop →
      ∀ e, e ≠ disallowed → P.throw e log)
    (hsends : ∀ addresses a request, Asks o policy hop url → hop.addresses = .ok addresses →
      pick o policy.allowPrivateNetwork addresses = some a → Sends policy hop →
      o.target request = some a →
      ((∀ next, ¬ Redirects policy hop redirect next) →
        (∀ e, e ≠ disallowed → P.throw e (log ++ [request])) ∧
        ∀ bytes, bytes.length ≤ policy.maxBytes → P.ok (.inl bytes) (log ++ [request])) ∧
      ∀ next, Redirects policy hop redirect next → P.ok (.inr next) (log ++ [request])) :
    wp (fetchHop o policy hop redirect url) P log := by
  refine wp_checkControl (fun hstop => hfails fun h => h.1.1 hstop) fun hcontrol => ?_
  rw [wp_bind, wp_answer]
  refine ⟨fun parts hparts => ?_, fun e he => hfails (fun h => ?_) e (parseUrl_error he)⟩
  swap
  · obtain ⟨⟨-, parts, hparts⟩, -⟩ := h
    rw [he] at hparts
    cases hparts
  have hasks : Asks o policy hop url := ⟨hcontrol, parts, hparts⟩
  dsimp only
  rw [wp_bind, wp_answer]
  cases haddresses : hop.addresses with
  | error what =>
    refine ⟨fun ip hip => (by cases hip), fun e he => ?_⟩
    cases he
    exact hfails (fun ⟨_, _, h⟩ => by rw [haddresses] at h; cases h) _ (error_ne_disallowed _ _)
  | ok addresses =>
    cases hpick : pick o policy.allowPrivateNetwork addresses with
    | none =>
      rw [resolvePublic_of_none hpick]
      refine ⟨fun ip hip => (by cases hip), fun e he => ?_⟩
      cases he
      exact hrefuses addresses hasks haddresses hpick
    | some a =>
      obtain ⟨ip, htext⟩ :=
        Option.isSome_iff_exists.mp (Bool.and_eq_true_iff.mp (pick_some hpick)).2
      rw [resolvePublic_of_pick hpick htext]
      refine ⟨fun ip' hip => ?_, fun e he => by cases he⟩
      cases hip
      have hheld : ¬ Sends policy hop → ∀ e, e ≠ disallowed → P.throw e log :=
        hholds addresses a hasks haddresses hpick
      refine wp_checkControl (fun hstop => hheld fun h => h.1 hstop) fun hcontrol1 => ?_
      rw [wp_bind, wp_require]
      refine ⟨fun hno => hheld (fun h => hno h.2.1) _ (by decide), fun hentry => ?_⟩
      dsimp only
      rw [wp_bind, wp_require]
      refine ⟨fun hno => hheld (fun h => hno h.2.2.1) _ (by decide), fun hhandle => ?_⟩
      refine wp_boundedTimeoutMs (fun hd hstop => hheld fun h => (h.2.2.2 hd).1 hstop)
        fun hcontrol2 connectMs => ?_
      refine wp_boundedTimeoutMs (fun hd hstop => hheld fun h => (h.2.2.2 hd).2 hstop)
        fun hcontrol4 timeoutMs => ?_
      -- from here on the request is on its way
      have hsent : Sends policy hop :=
        ⟨hcontrol1, hentry, hhandle, fun hd => ⟨hcontrol2 hd, hcontrol4 hd⟩⟩
      obtain ⟨parsed, hparsed, hhost, hport⟩ := parseUrl_ok hparts
      have htarget : o.target
          { url
            resolve := resolveEntry parts.host parts.port ip
            connectTimeoutMs := connectMs
            timeoutMs
            maxFileSize := policy.maxBytes } = some a := by
        unfold Outside.target
        rw [hparsed, Option.bind_some, hhost, hport]
        exact o.dial_entry _ _ _ _ htext
      obtain ⟨hends, hnext⟩ := hsends addresses a _ hasks haddresses hpick hsent htarget
      refine wp_concludeHop (fun hno => ⟨(hends hno).1, (hends hno).2 _ ?_⟩) hnext
      exact receive_length (Nat.zero_le _) _

/-! ## The whole download -/

variable {hops : Nat → Hop}

/-- What the defect of `private_ipv4` needs is absent, in `turns` turns of the loop from the turn
    `redirect` on: no request is sent to an address of the untested block, and no host is refused
    that has an address of the misread one. -/
def Clear (o : Outside) (policy : Policy) (hops : Nat → Hop) : Nat → Nat → String → Prop
  | 0, _, _ => True
  | turns + 1, redirect, url =>
    Asks o policy (hops redirect) url → ∀ addresses, (hops redirect).addresses = .ok addresses →
      match pick o policy.allowPrivateNetwork addresses with
      | none => ∀ a, .inet a ∈ addresses → ¬ a.Misread
      | some a => Sends policy (hops redirect) →
        (policy.allowPrivateNetwork = false → ¬ a.Untested) ∧
        ∀ next, Redirects policy (hops redirect) redirect next →
          Clear o policy hops turns (redirect + 1) next

/-- No request goes to an internal address. -/
def Clean (o : Outside) (policy : Policy) (log : List Request) : Prop :=
  policy.allowPrivateNetwork = false → ∀ request ∈ log, ∃ a, o.target request = some a ∧
    ¬ a.Internal

/-- All the IPv4 addresses of the turn's host are internal. -/
def Deserved (hop : Hop) : Prop :=
  ∃ addresses, hop.addresses = .ok addresses ∧ ∀ a, .inet a ∈ addresses → a.Internal

theorem clean_cons {request : Request} {more : List Request}
    (hpick : pick o policy.allowPrivateNetwork addresses = some a)
    (htarget : o.target request = some a) : Clean o policy (request :: more) ↔
      (policy.allowPrivateNetwork = false → ¬ a.Untested) ∧ Clean o policy more := by
  unfold Clean
  rw [← imp_and]
  refine imp_congr_right fun hprivate => ?_
  rw [hprivate] at hpick
  rw [List.forall_mem_cons, htarget]
  simp [internal_iff_of_pick hpick]

theorem clean_nil : Clean o policy [] := fun _ _ h => by cases h

section Turn

variable {turns redirect : Nat} {url : String}

/-- A turn that does not ask, or gets no answer, has nothing to answer for. -/
theorem clear_of_fails (h : ¬ (Asks o policy (hops redirect) url ∧
      ∃ addresses, (hops redirect).addresses = .ok addresses)) :
    Clear o policy hops (turns + 1) redirect url :=
  fun hasks addresses haddresses => absurd ⟨hasks, addresses, haddresses⟩ h

variable (hasks : Asks o policy (hops redirect) url)
  (haddresses : (hops redirect).addresses = .ok addresses)

include hasks haddresses

theorem clear_of_none (hpick : pick o policy.allowPrivateNetwork addresses = none) :
    Clear o policy hops (turns + 1) redirect url ↔ Deserved (hops redirect) := by
  have hinternal : (∀ b, .inet b ∈ addresses → ¬ b.Misread) ↔
      ∀ b, .inet b ∈ addresses → b.Internal :=
    forall₂_congr fun b hb => (internal_iff_of_none hpick hb).symm
  unfold Clear Deserved
  simp only [hasks, haddresses, Except.ok.injEq, forall_eq', hpick, forall_const, exists_eq_left',
    hinternal]

theorem clear_of_some (hpick : pick o policy.allowPrivateNetwork addresses = some a) :
    Clear o policy hops (turns + 1) redirect url ↔ (Sends policy (hops redirect) →
      (policy.allowPrivateNetwork = false → ¬ a.Untested) ∧
      ∀ next, Redirects policy (hops redirect) redirect next →
        Clear o policy hops turns (redirect + 1) next) := by
  rw [Clear]
  simp only [hasks, haddresses, Except.ok.injEq, forall_eq', hpick, forall_const]

end Turn

/-- A run of the loop sends at most a request a turn, returns no more bytes than it may, and does
    what it should exactly where the condition holds. -/
theorem wp_fetchFrom (o : Outside) (policy : Policy) (hops : Nat → Hop) (turns redirect : Nat)
    (url : String) (log : List Request) :
    wp (fetchFrom o policy hops turns redirect url) ⟨fun bytes t => bytes.length ≤ policy.maxBytes ∧
          ∃ more, t = log ++ more ∧ more.length ≤ turns ∧
            (Clean o policy more ↔ Clear o policy hops turns redirect url),
        fun e t => ∃ more, t = log ++ more ∧ more.length ≤ turns ∧
          (Clean o policy more ∧ (e = disallowed → Deserved (hops (redirect + more.length))) ↔
            Clear o policy hops turns redirect url),
        False⟩ log := by
  induction turns generalizing redirect url log with
  | zero =>
    refine ⟨[], (List.append_nil log).symm, le_rfl, iff_of_true ⟨clean_nil, fun h => ?_⟩ trivial⟩
    exact absurd h (error_ne_disallowed _ _)
  | succ turns ih =>
    rw [fetchFrom, wp_bind]
    refine wp_fetchHop (fun hfails e he => ?_) (fun addresses hasks haddresses hpick => ?_)
      (fun addresses a hasks haddresses hpick hholds e he => ?_)
      fun addresses a request hasks haddresses hpick hsends htarget =>
        ⟨fun hno => ⟨fun e he => ?_, fun bytes hbytes => ?_⟩, fun next hnext => ?_⟩
    · exact ⟨[], (List.append_nil _).symm, Nat.zero_le _,
        iff_of_true ⟨clean_nil, fun h => absurd h he⟩ (clear_of_fails hfails)⟩
    · refine ⟨[], (List.append_nil _).symm, Nat.zero_le _, ?_⟩
      rw [clear_of_none hasks haddresses hpick]
      exact ⟨fun h => h.2 rfl, fun h => ⟨clean_nil, fun _ => h⟩⟩
    · refine ⟨[], (List.append_nil _).symm, Nat.zero_le _, ?_⟩
      rw [clear_of_some hasks haddresses hpick]
      exact iff_of_true ⟨clean_nil, fun h => absurd h he⟩ fun h => absurd h hholds
    · refine ⟨[request], rfl, Nat.succ_le_succ (Nat.zero_le _), ?_⟩
      rw [clear_of_some hasks haddresses hpick, clean_cons hpick htarget]
      exact ⟨fun h _ => ⟨h.1.1, fun next hnext => absurd hnext (hno next)⟩,
        fun h => ⟨⟨(h hsends).1, clean_nil⟩, fun hd => absurd hd he⟩⟩
    · refine ⟨hbytes, [request], rfl, Nat.succ_le_succ (Nat.zero_le _), ?_⟩
      rw [clear_of_some hasks haddresses hpick, clean_cons hpick htarget]
      exact ⟨fun h _ => ⟨h.1, fun next hnext => absurd hnext (hno next)⟩,
        fun h => ⟨(h hsends).1, clean_nil⟩⟩
    · -- what the rest of the loop does is added to this turn's request
      have hrest : Clear o policy hops (turns + 1) redirect url ↔
          (policy.allowPrivateNetwork = false → ¬ a.Untested) ∧
            Clear o policy hops turns (redirect + 1) next := by
        rw [clear_of_some hasks haddresses hpick]
        refine ⟨fun h => ⟨(h hsends).1, (h hsends).2 next hnext⟩, fun h _ => ⟨h.1, ?_⟩⟩
        intro next' hnext'
        have hsame : some next = some next' :=
          hnext.2.2.2.2.1.symm.trans hnext'.2.2.2.2.1
        exact Option.some.inj hsame ▸ h.2
      refine wp_mono (ih (redirect + 1) next (log ++ [request])) ?_ ?_ id
      · rintro bytes t ⟨hle, more, rfl, hlen, hclean⟩
        refine ⟨hle, request :: more, List.append_assoc .., Nat.succ_le_succ hlen, ?_⟩
        rw [hrest, clean_cons hpick htarget, hclean]
      · rintro e t ⟨more, rfl, hlen, hclean⟩
        refine ⟨request :: more, List.append_assoc .., Nat.succ_le_succ hlen, ?_⟩
        rw [hrest, clean_cons hpick htarget, and_assoc, ← hclean, List.length_cons,
          show redirect + (more.length + 1) = redirect + 1 + more.length by omega]

/-- The condition on a whole download: a turn is made only if remote media are allowed and libcurl
    is there. -/
def ClearUrl (o : Outside) (initialized : Bool) (hops : Nat → Hop) (url : String)
    (policy : Policy) : Prop :=
  policy.allowRemote = true → initialized = true →
    Clear o policy hops (policy.maxRedirects + 1).toNat 0 url

theorem wp_fetchUrl (o : Outside) (initialized : Bool) (hops : Nat → Hop) (url : String)
    (policy : Policy) :
    wp (fetchUrl o initialized hops url policy) ⟨fun bytes log => bytes.length ≤ policy.maxBytes ∧
          log.length ≤ (policy.maxRedirects + 1).toNat ∧
          (Clean o policy log ↔ ClearUrl o initialized hops url policy),
        fun e log => log.length ≤ (policy.maxRedirects + 1).toNat ∧
          (Clean o policy log ∧ (e = disallowed → Deserved (hops log.length)) ↔
            ClearUrl o initialized hops url policy),
        False⟩ [] := by
  unfold fetchUrl ClearUrl
  rw [wp_bind, wp_require]
  refine ⟨fun hno => ⟨Nat.zero_le _, iff_of_true ⟨clean_nil, fun h => absurd h (by decide)⟩
    fun h => absurd h hno⟩, fun hremote => ?_⟩
  dsimp only
  rw [wp_bind, wp_require]
  refine ⟨fun hno => ⟨Nat.zero_le _, iff_of_true ⟨clean_nil, fun h => absurd h (by decide)⟩
    fun _ h => absurd h hno⟩, fun hinit => ?_⟩
  simp only [hremote, hinit, forall_const]
  refine wp_mono (wp_fetchFrom o policy hops _ 0 url []) ?_ ?_ id
  · rintro bytes t ⟨hle, more, rfl, hlen, hclean⟩
    exact ⟨hle, hlen, hclean⟩
  · rintro e t ⟨more, rfl, hlen, hclean⟩
    rw [Nat.zero_add] at hclean
    exact ⟨hlen, hclean⟩

/-! ## A small world -/

variable (a : InAddr)

/-- A byte in decimal. -/
def octet (b : UInt8) : List Char := Nat.toDigits 10 b.toNat

/-- The text that `inet_ntop` writes for an IPv4 address. -/
def dottedText : String :=
  .ofList (['.'].intercalate ([a.b0, a.b1, a.b2, a.b3].map octet))

def octetValue (text : List Char) : UInt8 :=
  UInt8.ofNat (text.foldl (fun n c => 10 * n + (c.toNat - '0'.toNat)) 0)

/-- `inet_pton` on the text of an IPv4 address. -/
def ofDotted (text : List Char) : Option InAddr :=
  match (text.splitOn '.').map octetValue with
  | [b0, b1, b2, b3] => some { b0, b1, b2, b3 }
  | _ => none

theorem octet_spec (b : UInt8) : octetValue (octet b) = b ∧ '.' ∉ octet b ∧ ':' ∉ octet b := by
  have hall : ∀ n < 256, octetValue (Nat.toDigits 10 n) = UInt8.ofNat n ∧
      '.' ∉ Nat.toDigits 10 n ∧ ':' ∉ Nat.toDigits 10 n := by decide +kernel
  have hb := hall b.toNat b.toNat_lt
  rw [UInt8.ofNat_toNat] at hb
  exact hb

theorem ofDotted_dottedText : ofDotted (dottedText a).toList = some a := by
  have hsplit : (['.'].intercalate ([a.b0, a.b1, a.b2, a.b3].map octet)).splitOn '.' =
      [a.b0, a.b1, a.b2, a.b3].map octet := by
    refine List.splitOn_intercalate '.' (fun l hl => ?_) (by simp)
    obtain ⟨b, -, rfl⟩ := List.mem_map.mp hl
    exact (octet_spec b).2.1
  unfold ofDotted dottedText
  rw [String.toList_ofList, hsplit]
  simp [(octet_spec _).1]

theorem colon_notMem_dottedText : ':' ∉ (dottedText a).toList := by
  unfold dottedText
  rw [String.toList_ofList]
  simp [List.intercalate, (octet_spec _).2.2]

/-- A world that knows one URL and only IPv4 addresses. -/
def oneUrl : Outside where
  curlUrl url :=
    if url = "http://media.example/a.png" then
      some { scheme := "http", host := "media.example", port := "80", user := "" }
    else none
  ntop
    | .inet a => some (dottedText a)
    | _ => none
  dial host port entry :=
    (ofDotted (entry.toList.drop (host ++ ":" ++ port ++ ":").length)).map .inet
  ntop_inet _ := rfl
  ntop_ne_empty a := by
    cases a with
    | inet a =>
      intro h
      have htext := ofDotted_dottedText a
      rw [Option.some.inj h] at htext
      cases htext
    | inet6 a => exact nofun
    | other family => exact nofun
  dial_entry host port a ip h := by
    cases a with
    | inet a =>
      cases h
      unfold resolveEntry
      rw [if_neg (colon_notMem_dottedText a), String.toList_append, ← String.length_toList,
        List.drop_left, ofDotted_dottedText]
      rfl
    | inet6 a => cases h
    | other family => cases h

/-! ## The guarantee -/

/-- There are at most `max_redirects + 1` requests and at most `max_bytes` bytes. Remote media never
    comes from an internal address, and no host with a public IPv4 address is refused, exactly if no
    turn of the download sends its request into the block that the source does not test or refuses a
    host of the one that it tests instead. -/
theorem remote_media_is_public (o : Outside) (initialized : Bool) (hops : Nat → Hop)
    (url : String) (policy : Policy) :
    (∀ log, (fetchUrl o initialized hops url policy []).Lands log →
      (log.length : Int) ≤ max 0 (policy.maxRedirects + 1)) ∧
    (∀ bytes log, fetchUrl o initialized hops url policy [] = .ok bytes log →
      bytes.length ≤ policy.maxBytes) ∧
    ((policy.allowPrivateNetwork = false →
        ∀ log, (fetchUrl o initialized hops url policy []).Lands log →
          ∀ request ∈ log, ∃ a, o.target request = some a ∧ ¬ a.Internal) ∧
      (∀ log, fetchUrl o initialized hops url policy [] = .throw disallowed log →
        ∃ addresses, (hops log.length).addresses = .ok addresses ∧
          ∀ a, .inet a ∈ addresses → a.Internal) ↔
      ClearUrl o initialized hops url policy) := by
  have hrun := wp_fetchUrl o initialized hops url policy
  unfold wp at hrun
  cases hout : fetchUrl o initialized hops url policy [] with
  | ok bytes log =>
    rw [hout] at hrun
    obtain ⟨hbytes, hlen, hclean⟩ := hrun
    refine ⟨fun t ht => ?_, fun b t h => ?_, hclean.symm.trans ?_ |>.symm⟩
    · cases ht
      omega
    · cases h
      exact hbytes
    · exact ⟨fun h => ⟨fun hp t ht => ht ▸ h hp, fun t ht => by cases ht⟩,
        fun h hp => h.1 hp log rfl⟩
  | throw e log =>
    rw [hout] at hrun
    obtain ⟨hlen, hclean⟩ := hrun
    refine ⟨fun t ht => ?_, fun b t h => (by cases h), hclean.symm.trans ?_ |>.symm⟩
    · cases ht
      omega
    · refine ⟨fun h => ⟨fun hp t ht => ht ▸ h.1 hp, fun t ht => ?_⟩,
        fun h => ⟨fun hp => h.1 hp log rfl, fun he => ?_⟩⟩
      · cases ht
        exact h.2 rfl
      · subst he
        exact h.2 log rfl
  | dead =>
    rw [hout] at hrun
    exact hrun.elim

/-- A host with some addresses, which answers with two bytes. -/
def oneHost (addresses : List InAddr) : Nat → Hop := fun _ =>
  { addresses := .ok (addresses.map .inet)
    transfer := { chunks := [{ size := 1, count := 2, data := [1, 2] }], status := 200 } }

def fetchOne (addresses : List InAddr) : Outcome (List Request) (List UInt8) :=
  fetchUrl oneUrl true (oneHost addresses) "http://media.example/a.png" {} []

/-- A public host that has an internal address too, behind its public one. -/
theorem remote_media_is_public_one :
    ∃ request, fetchOne [⟨93, 184, 216, 34⟩, ⟨198, 18, 0, 1⟩] = .ok [1, 2] [request] ∧
      request.resolve = "media.example:80:93.184.216.34" ∧
      ∃ a, oneUrl.target request = some a ∧ ¬ a.Internal := by
  have hclear : ClearUrl oneUrl true (oneHost [⟨93, 184, 216, 34⟩, ⟨198, 18, 0, 1⟩])
      "http://media.example/a.png" {} := by
    intro _ _ hasks addresses haddresses
    cases haddresses
    refine fun _ => ⟨fun _ => ?_, fun next hnext => ?_⟩
    · show ¬ (Cidr.dotted 198 18 0 0 15).Contains _
      decide
    · exact absurd hnext.2.1 (by decide)
  have hpublic := (remote_media_is_public oneUrl true _ _ {}).2.2.mpr hclear
  exact ⟨_, rfl, rfl, hpublic.1 rfl _ rfl _ List.mem_cons_self⟩

/-- An address of `198.18.0.0/15` is reached, and a public one of `198.126.0.0/15` is refused. -/
theorem benchmark_network_is_reached :
    (∃ request, fetchOne [⟨198, 18, 0, 1⟩] = .ok [1, 2] [request] ∧
      oneUrl.target request = some (.inet ⟨198, 18, 0, 1⟩)) ∧
    (SockAddr.inet ⟨198, 18, 0, 1⟩).Internal ∧
    fetchOne [⟨198, 126, 0, 1⟩] = .throw disallowed [] ∧
    ¬ (SockAddr.inet ⟨198, 126, 0, 1⟩).Internal := by
  refine ⟨⟨_, rfl, rfl⟩, ?_, rfl, ?_⟩
  · show ∃ c ∈ internalBlocks, c.Contains _
    decide
  · show ¬ ∃ c ∈ internalBlocks, c.Contains _
    decide

end Ninfer.Media
