import PTunes.Rime.Relcollect

/-!
# `PTunes.Rime.PoliteAnnouncement`: announcements of any number

`announcement.c` and `polite-announcement.c` for a list of registered announcements. A node of
`PTunes.Rime.Node` registers one, that of its relcollect connection. Here a `Station` has a node,
for its packet buffer and its ipolite connection, and the list `announcements`.

`sendAdv` writes the whole list into one packet, and `recv` takes a packet with one
announcement only. The callback of an announcement is any function, a parameter of the
reception. It may change the node, and it may write into the packet buffer that the loop of
`adv_packet_received` goes on to read. So `adata`, the memory at the received payload, is part
of a station.

Two fields are no variables of the source: `heard` are the calls of `announcement_heard`, and
`callbacks` the calls of a callback since the packet has come.
-/

set_option autoImplicit false

namespace PTunes.Rime.PoliteAnnouncement

/-! ### Messages -/

/-- `struct announcement_data`. -/
structure AnnouncementData where
  id : UInt16
  value : UInt16
deriving DecidableEq, Repr

/-- `struct announcement_msg`. -/
structure AnnouncementMsg where
  num : UInt16
  data : List AnnouncementData

/-- The bytes of `struct announcement_data`. -/
def AnnouncementData.bytes (d : AnnouncementData) : List UInt8 := le16 d.id ++ le16 d.value

/-- The bytes of `struct announcement_msg`. -/
def AnnouncementMsg.bytes (m : AnnouncementMsg) : List UInt8 :=
  le16 m.num ++ m.data.flatMap AnnouncementData.bytes

/-! ### A station -/

/-- `struct announcement`, without the link to the next one. `callback` says that it is not
`NULL`. -/
structure RegisteredAnnouncement where
  id : UInt16
  value : UInt16
  callback : Bool
deriving DecidableEq, Repr

/-- The arguments of `announcement_heard`. -/
structure Heard where
  sender : RimeAddr
  id : UInt16
  value : UInt16
deriving DecidableEq, Repr

/-- What the callback of an announcement does, in its `n`-th call since the packet has come:
it gets the memory at the payload and the node, and leaves others. -/
abbrev Callback : Type :=
  Nat → RegisteredAnnouncement → Heard → Memory × Node → Memory × Node

/-- A node and its announcements, and the memory at the payload of the received packet. -/
structure Station where
  node : Node
  adata : Memory
  announcements : List RegisteredAnnouncement
  heard : List Heard
  callbacks : List (RegisteredAnnouncement × Heard)

/-! ### Sending -/

/-- A turn of the loop in `send_adv`. -/
def AnnouncementMsg.add (adata : AnnouncementMsg) (a : RegisteredAnnouncement) :
    AnnouncementMsg where
  num := adata.num + 1
  data := adata.data ++ [⟨a.id, a.value⟩]

/-- The message that `send_adv` writes. -/
def fillMsg (l : List RegisteredAnnouncement) : AnnouncementMsg :=
  l.foldl AnnouncementMsg.add ⟨0, []⟩

/-- `packetbuf_datalen` of the message. -/
def AnnouncementMsg.datalen (adata : AnnouncementMsg) : Nat :=
  announcementMsgHeaderlen + announcementDataSize * adata.num.toNat

/-- `send_adv`, with a non-zero interval. A message without announcements is not sent. -/
def sendAdv (s : Station) : Station :=
  let adata := fillMsg s.announcements
  let node := { s.node with
    packetbuf := { Packetbuf.clear with data := adata.bytes.take adata.datalen } }
  if 0 < adata.num then { s with node := ipoliteSend node (UInt8.ofNat adata.datalen) }
  else { s with node := node }

/-! ### Receiving -/

/-- `announcement_heard`: the first registered announcement with the id has its callback
called. -/
def announcementHeard (cb : Callback) (sender : RimeAddr) (s : Station) (id value : UInt16) :
    Station :=
  let h : Heard := ⟨sender, id, value⟩
  let s := { s with heard := s.heard ++ [h] }
  match (s.announcements.find? fun a => a.id == id).filter (·.callback) with
  | some a =>
    let r := cb s.callbacks.length a h (s.adata, s.node)
    { s with adata := r.1, node := r.2, callbacks := s.callbacks ++ [(a, h)] }
  | none => s

/-- A station when `adv_packet_received` is called: the payload is in the packet buffer, and
`ipolite.c` has compared it with its own packet. `outside` is the memory around the payload. -/
def received (s : Station) (packet : List UInt8) (outside : Memory) : Station :=
  { s with
    node := ipoliteRecv (loadPayload s.node packet)
    adata := outside.write 0 packet
    callbacks := [] }

/-- `recv` of `ipolite.c`, with `adv_packet_received` as its callback. -/
def recv (cb : Callback) (s : Station) (sender : RimeAddr) (packet : List UInt8)
    (outside : Memory) : Station :=
  advPacketReceived Station.adata (announcementHeard cb sender) (received s packet outside)

/-- The callback of relcollect, `received_announcement`. The `n`-th call reads `env n`, and
`outside (n + 1)` is the memory around the packet buffer after it. -/
def relcollectCallback (C : NodeConf) (outside : Nat → Memory) (env : Nat → Env) : Callback :=
  fun n _ h r =>
    let s := noteAnnouncement C r.2 h.sender h.value
    (overwrite (outside (n + 1)) (routeWrites C (env n) s) r.1, relUpdateRtmetric C (env n) s)

end PTunes.Rime.PoliteAnnouncement
