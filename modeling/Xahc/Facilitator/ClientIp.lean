/-
`clientIp`: the key of the rate limiter behind trusted proxies. Which requests get the address the
outermost trusted proxy observed, and when the key does not depend on what the client sent.
-/
import Xahc.Data.JsString

namespace Xahc.Facilitator

open Xahc.Data

/-- The part of a request `clientIp` reads. -/
structure Req where
  remoteAddress : Option String
  /-- `headers["x-forwarded-for"]`, where it is a string. -/
  xForwardedFor : Option String
  deriving DecidableEq, Repr

/-- `xff.split(",").map(trim).filter(nonempty)`. -/
def xffParts (xff : String) : List String :=
  (((jsSplit ',' xff.toList).map jsTrim).filter fun s => !s.isEmpty).map String.ofList

/-- `(req.socket.remoteAddress) || "unknown"`. -/
def Req.socketAddr (req : Req) : String :=
  match req.remoteAddress with
  | some a => if a = "" then "unknown" else a
  | none => "unknown"

/-- The address a request is counted for: the socket's, or the entry of the header that is `hops` from its right end. -/
def clientIp (req : Req) (hops : Nat) : String :=
  if hops = 0 then req.socketAddr
  else
    match req.xForwardedFor with
    | none => req.socketAddr
    | some xff =>
      if xff = "" then req.socketAddr
      else
        let parts := xffParts xff
        if parts.length = 0 then req.socketAddr
        else
          let idx : Int := parts.length - 1 - hops
          if idx < 0 then req.socketAddr
          else
            match parts[idx.toNat]? with
            | some ip => if ip = "" then req.socketAddr else ip
            | none => req.socketAddr

/-! ## Appending proxies -/

/-- An address as a proxy writes it: not blank, without commas or surrounding white space. -/
structure Address where
  text : String
  nonempty : text ≠ ""
  plain : ',' ∉ text.toList
  trimmed : jsTrim text.toList = text.toList

/-- A proxy adds the address of the peer it got the request from to the header. -/
def appendPeer (xff : Option String) (peer : Address) : Option String :=
  match xff with
  | none => some peer.text
  | some v => some (v ++ ", " ++ peer.text)

/-- A request from `peer` with header `xff` on its way through proxies, the next one first: what the
server receives. -/
def deliver (peer : Address) (xff : Option String) : List Address → Req
  | [] => ⟨some peer.text, xff⟩
  | proxy :: proxies => deliver proxy (appendPeer xff peer) proxies

/-- The entries of a header that may be missing. -/
def headerParts : Option String → List String
  | none => []
  | some xff => xffParts xff

theorem xffParts_append (s t : String) : xffParts (s ++ "," ++ t) = xffParts s ++ xffParts t := by
  have chars : (s ++ "," ++ t).toList = s.toList ++ ',' :: t.toList := by simp
  rw [xffParts, chars, jsSplit_append]
  simp [xffParts]

theorem xffParts_address (a : Address) : xffParts a.text = [a.text] := by
  have hne : a.text.toList ≠ [] := fun h => a.nonempty (String.toList_eq_nil_iff.mp h)
  rw [xffParts, jsSplit_of_notMem a.plain]
  simp [a.trimmed, hne]

theorem xffParts_space (a : Address) : xffParts (" " ++ a.text) = [a.text] := by
  have hne : a.text.toList ≠ [] := fun h => a.nonempty (String.toList_eq_nil_iff.mp h)
  have chars : (" " ++ a.text).toList = ' ' :: a.text.toList := by simp
  have plain : ',' ∉ ' ' :: a.text.toList := by simp [a.plain]
  rw [xffParts, chars, jsSplit_of_notMem plain]
  simp [jsTrim_cons (c := ' ') (by decide), a.trimmed, hne]

theorem headerParts_append (xff : Option String) (peer : Address) :
    headerParts (appendPeer xff peer) = headerParts xff ++ [peer.text] := by
  cases xff with
  | none => simp [appendPeer, headerParts, xffParts_address]
  | some v =>
    have split : v ++ ", " ++ peer.text = v ++ "," ++ (" " ++ peer.text) := by
      apply String.ext; simp
    rw [appendPeer, headerParts, split, xffParts_append, xffParts_space]
    rfl

/-- The proxy the server is connected to. -/
def nearest (peer : Address) : List Address → Address
  | [] => peer
  | proxy :: proxies => nearest proxy proxies

/-- What the proxies add between them: the address of each one's own peer. -/
def observed (peer : Address) : List Address → List String
  | [] => []
  | proxy :: proxies => peer.text :: observed proxy proxies

theorem observed_length (peer : Address) (proxies : List Address) :
    (observed peer proxies).length = proxies.length := by
  induction proxies generalizing peer with
  | nil => rfl
  | cons proxy proxies ih => simp [observed, ih]

theorem deliver_socket (peer : Address) (xff : Option String) (proxies : List Address) :
    (deliver peer xff proxies).socketAddr = (nearest peer proxies).text := by
  induction proxies generalizing peer xff with
  | nil => simp [deliver, nearest, Req.socketAddr, peer.nonempty]
  | cons proxy proxies ih => exact ih proxy _

theorem deliver_parts (peer : Address) (xff : Option String) (proxies : List Address) :
    headerParts (deliver peer xff proxies).xForwardedFor = headerParts xff ++ observed peer proxies := by
  induction proxies generalizing peer xff with
  | nil => simp [deliver, observed]
  | cons proxy proxies ih =>
    rw [deliver, ih, headerParts_append, observed]
    simp

theorem xffParts_nonempty {xff ip : String} (h : ip ∈ xffParts xff) : ip ≠ "" := by
  simp only [xffParts, List.mem_map, List.mem_filter] at h
  obtain ⟨s, ⟨-, hs⟩, rfl⟩ := h
  intro hempty
  simp [String.ofList_eq_empty_iff.mp hempty] at hs

/-- `clientIp` by the entries of the header: the one before the last `hops`, or the socket peer. -/
theorem clientIp_parts (req : Req) {hops : Nat} (hhops : 0 < hops) :
    clientIp req hops =
      if (headerParts req.xForwardedFor).length ≤ hops then req.socketAddr
      else (headerParts req.xForwardedFor).getD ((headerParts req.xForwardedFor).length - 1 - hops) "" := by
  unfold clientIp
  rw [if_neg hhops.ne']
  cases hx : req.xForwardedFor with
  | none => simp [headerParts]
  | some xff =>
    by_cases hempty : xff = ""
    · subst hempty
      simp [headerParts, show xffParts "" = [] by decide]
    · rw [show headerParts (some xff) = xffParts xff from rfl]
      simp only [if_neg hempty]
      by_cases hlen : (xffParts xff).length ≤ hops
      · rw [if_pos hlen]
        split
        · rfl
        · rw [if_pos (by omega)]
      · have hidx : (((xffParts xff).length : Int) - 1 - hops).toNat = (xffParts xff).length - 1 - hops := by omega
        have hlt : (xffParts xff).length - 1 - hops < (xffParts xff).length := by omega
        rw [if_neg (by omega), if_neg (by omega), if_neg hlen, hidx, List.getElem?_eq_getElem hlt,
          List.getD_eq_getElem?_getD, List.getElem?_eq_getElem hlt]
        exact if_neg (xffParts_nonempty (List.getElem_mem hlt))

/-- Behind `n` appending proxies the key is the last entry the client itself supplied, and the nearest
proxy's address where it supplied none. -/
theorem clientIp_deliver (client : Address) (xff : Option String) {proxies : List Address}
    (hne : proxies ≠ []) :
    clientIp (deliver client xff proxies) proxies.length =
      (headerParts xff).getLast?.getD (nearest client proxies).text := by
  rw [clientIp_parts _ (List.length_pos_iff.mpr hne), deliver_socket, deliver_parts, List.length_append,
    observed_length]
  cases hlast : (headerParts xff).getLast? with
  | none =>
    rw [List.getLast?_eq_none_iff] at hlast
    simp [hlast]
  | some ip =>
    have hpos : 0 < (headerParts xff).length := List.length_pos_of_mem (List.mem_of_getLast? hlast)
    have hidx : (headerParts xff).length + proxies.length - 1 - proxies.length = (headerParts xff).length - 1 := by
      omega
    rw [if_neg (by omega), hidx, List.getD_eq_getElem?_getD, List.getElem?_append_left (by omega),
      ← List.getLast?_eq_getElem?, hlast]
    rfl

/-- What the client supplied ends in its own address, or is blank and the client is the socket peer. -/
def NamesClient (client : Address) (proxies : List Address) (xff : Option String) : Prop :=
  (headerParts xff).getLast? = some client.text ∨
    headerParts xff = [] ∧ (nearest client proxies).text = client.text

theorem clientIp_eq_client (client : Address) (xff : Option String) {proxies : List Address}
    (hne : proxies ≠ []) :
    clientIp (deliver client xff proxies) proxies.length = client.text ↔ NamesClient client proxies xff := by
  rw [clientIp_deliver client xff hne, NamesClient, ← List.getLast?_eq_none_iff]
  cases (headerParts xff).getLast? <;> simp

/-- Two requests of one client, alike but for what it put in the header, get the same key and the one
the outermost proxy observed exactly where both headers name the client anyway. -/
theorem clientIp_noninterference_iff (client : Address) (outermost : Address) (inner : List Address)
    (xff xff' : Option String) :
    let proxies := outermost :: inner
    (clientIp (deliver client xff proxies) proxies.length = clientIp (deliver client xff' proxies) proxies.length ∧
        clientIp (deliver client xff proxies) proxies.length = client.text) ↔
      NamesClient client proxies xff ∧ NamesClient client proxies xff' := by
  intro proxies
  have hne : proxies ≠ [] := List.cons_ne_nil _ _
  rw [← clientIp_eq_client client xff hne, ← clientIp_eq_client client xff' hne]
  constructor
  · rintro ⟨hsame, hclient⟩
    exact ⟨hclient, hsame ▸ hclient⟩
  · rintro ⟨h, h'⟩
    exact ⟨h.trans h'.symm, h⟩

/-! One proxy, and a client that forges an entry: the limiter keys on the forgery. -/

/-- The address of a client. -/
def honestClient : Address := ⟨"203.0.113.7", by decide, by decide, by decide⟩

/-- The address of a proxy. -/
def edgeProxy : Address := ⟨"10.0.0.1", by decide, by decide, by decide⟩

theorem clientIp_forged :
    clientIp (deliver honestClient none [edgeProxy]) 1 = "10.0.0.1" ∧
      clientIp (deliver honestClient (some "6.6.6.6") [edgeProxy]) 1 = "6.6.6.6" := by
  decide

end Xahc.Facilitator
