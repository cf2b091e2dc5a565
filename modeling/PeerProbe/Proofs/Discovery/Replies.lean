import PeerProbe.Proofs.Discovery.Bonding

/-!
# What a responder sends

Over any datagrams that come in one after the other: a ping is answered with its nonce, a query for
nodes is answered if its source is bonded by the pings before it, and nothing else is. Who is
bonded is told from the pings alone, and the table never outgrows its limit.
-/

namespace PeerProbe.Discovery

/-- A datagram as it comes in. -/
structure Arrival where
  time : Nat
  source : Endpoint
  datagram : List UInt8

namespace Arrival

/-- Whether a datagram is a ping. -/
def isPing (x : Arrival) : Bool :=
  match Responder.packet x.datagram with
  | .ok (.ping _ _) => true
  | _ => false

/-- The sources of the pings among some datagrams. -/
def pingers (arrivals : List Arrival) : List Endpoint := (arrivals.filter isPing).map source

/-- The source of a datagram pinged before, its last ping is less than `ttl` old, and fewer than
`room` different other endpoints pinged since then. -/
def Bonded (ttl room : Nat) (before : List Arrival) (x : Arrival) : Prop :=
  ∃ earlier p since, before = earlier ++ p :: since ∧ p.isPing ∧ p.source = x.source ∧
    x.source ∉ pingers since ∧ x.time - p.time < ttl ∧ (pingers since).toFinset.card < room

open Classical in
/-- What is sent for a datagram, and to whom, after the datagrams before it. -/
noncomputable def due (nodes : List PeerRef) (ttl room : Nat) (before : List Arrival)
    (x : Arrival) : Option (Endpoint × Packet) :=
  match Responder.packet x.datagram with
  | .ok (.ping _ nonce) => some (x.source, .pong nonce)
  | .ok (.findNode _) =>
    if Bonded ttl room before x then some (x.source, .neighbors (nodes.take 16)) else none
  | _ => none

/-- The pings among some datagrams, the latest first. -/
def pings (arrivals : List Arrival) : List (Endpoint × Nat) :=
  ((arrivals.filter isPing).map fun x => (x.source, x.time)).reverse

theorem pings_append (front back : List Arrival) : pings (front ++ back) = pings back ++ pings front := by
  simp only [pings, List.filter_append, List.map_append, List.reverse_append]

theorem pings_cons (p : Arrival) (since : List Arrival) (h : p.isPing) :
    pings (p :: since) = pings since ++ [(p.source, p.time)] := by
  simp only [pings, List.filter_cons_of_pos h, List.map_cons, List.reverse_cons]

theorem pings_of_not (x : Arrival) (h : ¬ x.isPing) : pings [x] = [] := by
  simp [pings, h]

theorem mem_keys_pings {arrivals : List Arrival} {a : Endpoint} :
    a ∈ (pings arrivals).map Prod.fst ↔ a ∈ pingers arrivals := by
  rw [pings, List.map_reverse, List.mem_reverse, List.map_map]
  rfl

theorem pingerCount_pings (arrivals : List Arrival) :
    pingerCount (pings arrivals) = (pingers arrivals).toFinset.card := by
  refine congrArg Finset.card (Finset.ext fun a => ?_)
  rw [List.mem_toFinset, List.mem_toFinset, mem_keys_pings]

/-- A ping in the history is one of the datagrams. -/
theorem exists_of_pings_eq {before : List Arrival} {since older : List (Endpoint × Nat)}
    {e : Endpoint × Nat} (h : pings before = since ++ e :: older) :
    ∃ earlier p later, before = earlier ++ p :: later ∧ p.isPing ∧ (p.source, p.time) = e ∧
      pings later = since := by
  rw [pings, List.reverse_eq_iff, List.reverse_append, List.reverse_cons, List.append_assoc,
    List.map_eq_append_iff] at h
  obtain ⟨xs, ys, hfilter, hxs, hys⟩ := h
  rw [List.singleton_append, List.map_eq_cons_iff] at hys
  obtain ⟨p, zs, rfl, hp, hzs⟩ := hys
  obtain ⟨front, back, rfl, -, hback⟩ := List.filter_eq_append_iff.mp hfilter
  obtain ⟨skipped, later, rfl, -, hping, hlater⟩ := List.filter_eq_cons_iff.mp hback
  refine ⟨front ++ skipped, p, later, (List.append_assoc _ _ _).symm, hping, hp, ?_⟩
  rw [pings, hlater, hzs, List.reverse_reverse]

/-- Being bonded is a fact about the history of pings. -/
theorem bonded_iff {ttl room : Nat} {before : List Arrival} {x : Arrival} :
    Bonded ttl room before x ↔ ∃ since t older,
      pings before = since ++ (x.source, t) :: older ∧ x.source ∉ since.map Prod.fst ∧
        x.time - t < ttl ∧ pingerCount since < room := by
  constructor
  · rintro ⟨earlier, p, since, rfl, hping, hsource, hlast, hage, hcount⟩
    refine ⟨pings since, p.time, pings earlier, ?_, mt mem_keys_pings.mp hlast, hage, ?_⟩
    · rw [pings_append, pings_cons p since hping, hsource, List.append_assoc,
        List.singleton_append]
    · rwa [pingerCount_pings]
  · rintro ⟨since, t, older, heq, hlast, hage, hcount⟩
    obtain ⟨earlier, p, later, rfl, hping, hp, rfl⟩ := exists_of_pings_eq heq
    obtain ⟨hsource, rfl⟩ := Prod.mk.inj hp
    exact ⟨earlier, p, later, rfl, hping, hsource, mt mem_keys_pings.mpr hlast, hage,
      by rwa [← pingerCount_pings]⟩

/-- Datagrams that came in one after the other. -/
def Ordered (arrivals : List Arrival) : Prop := arrivals.Pairwise fun x y => x.time < y.time

theorem Ordered.pings {arrivals : List Arrival} (h : Ordered arrivals) :
    (pings arrivals).Pairwise fun x y => y.2 < x.2 := by
  rw [Arrival.pings, List.pairwise_reverse, List.pairwise_map]
  exact h.sublist List.filter_sublist

theorem mem_pings {arrivals : List Arrival} {e : Endpoint × Nat} (h : e ∈ pings arrivals) :
    ∃ p ∈ arrivals, p.time = e.2 := by
  obtain ⟨p, hp, rfl⟩ := List.mem_map.mp (List.mem_reverse.mp h)
  exact ⟨p, (List.mem_filter.mp hp).1, rfl⟩

end Arrival

namespace Responder

open Arrival

/-- React to datagrams one after the other: what is sent for each and to whom, and the responder
behind them. -/
def play : Responder → List Arrival → Option (List (Option (Endpoint × Packet)) × Responder)
  | r, [] => some ([], r)
  | r, x :: rest => do
    let reaction ← r.receive? x.time x.source x.datagram
    let (sent, last) ← reaction.responder.play rest
    some (reaction.reply.map (x.source, ·) :: sent, last)

/-- A responder with its limits after some datagrams. -/
structure After (nodes : List PeerRef) (ttl room : Nat) (before : List Arrival)
    (r : Responder) : Prop where
  nodes_eq : r.nodes = nodes
  ttl_eq : r.bonds.ttl = ttl
  room_eq : r.bonds.capacity = room
  bonds : r.bonds.Remembers (pings before)

variable {nodes : List PeerRef} {ttl room : Nat} {before : List Arrival} {x : Arrival}
  {r : Responder}

/-- What is not a ping leaves the responder after it as it is. -/
theorem After.skip (h : After nodes ttl room before r) (hping : ¬ x.isPing) :
    After nodes ttl room (before ++ [x]) r :=
  ⟨h.nodes_eq, h.ttl_eq, h.room_eq, by
    rw [pings_append, pings_of_not x hping]
    exact h.bonds⟩

/-- One datagram is answered as it is due. -/
theorem After.receive (h : After nodes ttl room before r) (hordered : Ordered (before ++ [x]))
    (hread : packet x.datagram ≠ .error .crash) :
    ∃ reaction, r.receive? x.time x.source x.datagram = some reaction ∧
      reaction.reply.map (x.source, ·) = due nodes ttl room before x ∧
      After nodes ttl room (before ++ [x]) reaction.responder := by
  obtain ⟨hbefore, -, hcross⟩ := List.pairwise_append.mp hordered
  have hlater : ∀ p ∈ pings before, p.2 < x.time := by
    intro p hp
    obtain ⟨y, hy, htime⟩ := mem_pings hp
    exact htime ▸ hcross y hy x List.mem_cons_self
  rw [receive?]
  unfold due
  cases hpacket : packet x.datagram with
  | error e =>
    have hping : ¬ x.isPing := by simp [isPing, hpacket]
    cases e with
    | malformed => exact ⟨_, rfl, rfl, h.skip hping⟩
    | crash => exact absurd hpacket hread
  | ok p =>
    refine ⟨_, rfl, ?_⟩
    cases p with
    | ping source nonce =>
      have hping : x.isPing := by simp [isPing, hpacket]
      refine ⟨rfl, h.nodes_eq, h.ttl_eq, h.room_eq, ?_⟩
      rw [pings_append, pings_cons x [] hping]
      exact h.bonds.insert (Ordered.pings hbefore) hlater x.source
    | pong nonce => exact ⟨rfl, h.skip (by simp [isPing, hpacket])⟩
    | neighbors nodes => exact ⟨rfl, h.skip (by simp [isPing, hpacket])⟩
    | findNode target =>
      have hbonded : r.bonds.isBonded x.source x.time ↔ Bonded ttl room before x := by
        rw [h.bonds.isBonded_iff hlater, bonded_iff, h.ttl_eq, h.room_eq]
      have hskip := h.skip (x := x) (by simp [isPing, hpacket])
      by_cases hb : Bonded ttl room before x
      · simp only [handle, if_pos (hbonded.mpr hb), if_pos hb]
        exact ⟨by rw [answer, h.nodes_eq]; rfl, hskip⟩
      · simp only [handle, if_neg (mt hbonded.mp hb), if_neg hb]
        exact ⟨rfl, hskip⟩

/-- All datagrams are answered as it is due. -/
theorem After.play : ∀ {rest before : List Arrival} {r : Responder},
    After nodes ttl room before r → Ordered (before ++ rest) →
    (∀ x ∈ rest, packet x.datagram ≠ .error .crash) →
    ∃ sent last, r.play rest = some (sent, last) ∧ After nodes ttl room (before ++ rest) last ∧
      sent.length = rest.length ∧ ∀ front x back, rest = front ++ x :: back →
        sent[front.length]? = some (due nodes ttl room (before ++ front) x)
  | [], before, r, h, _, _ => by
    refine ⟨[], r, rfl, by rwa [List.append_nil], rfl, fun front x back heq => ?_⟩
    exact absurd heq.symm (by simp)
  | x :: rest, before, r, h, hordered, hread => by
    have hassoc : before ++ x :: rest = (before ++ [x]) ++ rest := by simp
    obtain ⟨reaction, hreceive, hreply, hafter⟩ :=
      h.receive ((hassoc ▸ hordered).sublist (List.sublist_append_left _ _))
        (hread x List.mem_cons_self)
    obtain ⟨sent, last, hplay, hlast, hlength, hsent⟩ :=
      hafter.play (hassoc ▸ hordered) fun y hy => hread y (List.mem_cons_of_mem _ hy)
    refine ⟨reaction.reply.map (x.source, ·) :: sent, last, ?_, hassoc ▸ hlast,
      congrArg (· + 1) hlength, fun front y back heq => ?_⟩
    · simp [Responder.play, hreceive, hplay]
    · cases front with
      | nil =>
        obtain ⟨rfl, rfl⟩ := List.cons.inj heq
        rw [List.append_nil, ← hreply]
        rfl
      | cons z front =>
        obtain ⟨rfl, hrest⟩ := List.cons.inj heq
        rw [List.length_cons, List.getElem?_cons_succ, hsent front y back hrest,
          List.append_assoc]
        rfl

/-- Over datagrams that came in one after the other, each ping is answered with its nonce, each
query for nodes with the first sixteen of them exactly if its source is bonded, and nothing else is
answered; and there are never more bonds than there is room for. -/
theorem each_answered_as_due (nodes : List PeerRef) (ttl : Duration) (limit : Nat)
    (arrivals : List Arrival) (hordered : Ordered arrivals)
    (hread : ∀ x ∈ arrivals, packet x.datagram ≠ .error .crash) :
    ∃ sent last, ((new nodes).withLimits ttl limit).play arrivals = some (sent, last) ∧
      sent.length = arrivals.length ∧
      (∀ front x back, arrivals = front ++ x :: back →
        sent[front.length]? = some (due nodes ttl.nanos (max 1 limit) front x)) ∧
      ∀ front back, arrivals = front ++ back → ∃ sentBefore r,
        ((new nodes).withLimits ttl limit).play front = some (sentBefore, r) ∧
          r.bonds.seen.length ≤ max 1 limit := by
  have hstart : After nodes ttl.nanos (max 1 limit) [] ((new nodes).withLimits ttl limit) :=
    ⟨rfl, rfl, Nat.max_comm limit 1, Bonds.remembers_empty ttl limit⟩
  obtain ⟨sent, last, hplay, -, hlength, hsent⟩ := hstart.play hordered hread
  refine ⟨sent, last, hplay, hlength, hsent, ?_⟩
  rintro front back rfl
  obtain ⟨sentBefore, r, hplayed, hafter, -, -⟩ :=
    hstart.play (hordered.sublist (List.sublist_append_left front back)) fun x hx =>
      hread x (List.mem_append_left back hx)
  exact ⟨sentBefore, r, hplayed, hafter.room_eq ▸ hafter.bonds.fits⟩

/-- Two guests that share the only bond: each is served after its own ping and not after the
other's. Noise between them changes nothing. -/
def twoGuests : List Arrival :=
  let guest : PeerRef := ⟨.replicate 64 1, .v4 .loopback, 30304, 30304⟩
  let first : Endpoint := ⟨.v4 .loopback, 1⟩
  let second : Endpoint := ⟨.v4 .loopback, 2⟩
  let ping := Utf8.encode (Packet.ping guest 7).chars
  let query := Utf8.encode (Packet.findNode "00").chars
  [⟨0, first, query⟩, ⟨1, first, ping⟩, ⟨2, first, query⟩, ⟨3, second, [0xff]⟩, ⟨4, second, ping⟩,
    ⟨5, second, query⟩, ⟨6, first, query⟩]

theorem each_answered_as_due_twoGuests : Ordered twoGuests ∧
    (∀ x ∈ twoGuests, packet x.datagram ≠ .error .crash) ∧
    ∃ sent last, ((new []).withLimits (.ofSecs 60) 0).play twoGuests = some (sent, last) ∧
      sent.length = twoGuests.length ∧
      (∀ front x back, twoGuests = front ++ x :: back →
        sent[front.length]? = some (due [] (Duration.ofSecs 60).nanos (max 1 0) front x)) ∧
      ∀ front back, twoGuests = front ++ back → ∃ sentBefore r,
        ((new []).withLimits (.ofSecs 60) 0).play front = some (sentBefore, r) ∧
          r.bonds.seen.length ≤ max 1 0 :=
  have hordered : Ordered twoGuests := by simp [Ordered, twoGuests]
  have hread : ∀ x ∈ twoGuests, packet x.datagram ≠ .error .crash := by decide +kernel
  ⟨hordered, hread, each_answered_as_due [] (.ofSecs 60) 0 twoGuests hordered hread⟩

example : (((new []).withLimits (.ofSecs 60) 0).play twoGuests).map
      (·.1.map fun sent => sent.map fun x => (x.1.port, x.2.kind)) =
    some [none, some (1, "pong"), some (1, "neighbors"), none, some (2, "pong"),
      some (2, "neighbors"), none] := by
  decide +kernel

end Responder

end PeerProbe.Discovery
