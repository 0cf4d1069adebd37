import AfpfsNg.Dsi.Basic

/-!
# Receiving DSI packets

Model of `dsi_recv` (`lib/dsi.c`) with the handlers it dispatches to, and of the part of
`process_server_fds` (`lib/loop.c`) that calls it. One Lean function stands for the code from one label
of `dsi_recv` to the next. A `Fault` says which access went wrong. `read` is the only source of bytes; a result of zero or
less ends the call with `-1`.

Handlers keep their effect on the server record. What the reply parsers fill in elsewhere is left out,
and so is what `afp_unmount_volume` sends and what `afp_server_reconnect` does before an answer to a
tickle goes out.
-/

namespace AfpfsNg.Dsi
open AfpfsNg.Base

/-- Accesses that are undefined behaviour in C. -/
inductive Fault where
  /-- a write past the end of `incoming_buffer` -/
  | incomingOverflow
  /-- a read past the end of `incoming_buffer` -/
  | incomingOverread
  /-- a write past the end of `attention_buffer` -/
  | attentionOverflow
  /-- a write past the end of a request's receive buffer -/
  | rxOverflow
  /-- a null `request` or `other` pointer is followed -/
  | nullDereference
  /-- the server record is used after `afp_free_server` -/
  | useAfterFree
  deriving DecidableEq, Repr

/-- Return value, server and socket after a call, unless it faulted. -/
abbrev Outcome := Except Fault (Int × Server × Sock)

def Server.countRx (s : Server) (n : Nat) : Server :=
  { s with stats := { s.stats with rxBytes := s.stats.rxBytes + n } }

/-- The server once `bs` stands at `incoming_buffer + data_read`. -/
def Server.stored (s : Server) (bs : Bytes) : Server :=
  { s.countRx bs.length with
    incomingBuffer := patch s.incomingBuffer s.dataRead bs
    dataRead := s.dataRead + bs.length }

def Server.store (s : Server) (bs : Bytes) : Except Fault Server :=
  if s.dataRead + bs.length ≤ s.bufsize then .ok (s.stored bs) else .error .incomingOverflow

def Server.countRunt (s : Server) : Server :=
  { s with stats := { s.stats with runtPackets := s.stats.runtPackets + 1 } }

def Server.reset (s : Server) : Server :=
  { s with dataRead := 0 }

def Server.update (s : Server) (a : Nat) (f : Request → Request) : Server :=
  { s with commandRequests := updateAt s.commandRequests a f }

def Server.removeRequest (s : Server) (a : Nat) : Server :=
  if s.commandRequests.any (fun r => r.addr == a) then
    { s with
      commandRequests := dsiRemoveFromRequestQueue s.commandRequests a
      stats := { s.stats with requestsPending := s.stats.requestsPending - 1 } }
  else s

def loopDisconnect (s : Server) : Server :=
  match s.connectState with
  | .connected => { s with connectState := .disconnected, polled := false, needResume := true }
  | .disconnected => s

def somethingIsMounted (vs : List MountState) : Bool :=
  vs.any (· != .unmounted)

/-- C `afp_unmount_all_volumes` from the volume after `before` on, with `none` if the server is freed. -/
def unmountFrom (before : List MountState) : List MountState → Option (List MountState)
  | [] => some before
  | .mounted :: vs =>
    if somethingIsMounted (before ++ .unmounted :: vs) then unmountFrom (before ++ [.unmounted]) vs
    else none
  | v :: vs => unmountFrom (before ++ [v]) vs

def afpUnmountAllVolumes (vs : List MountState) : Option (List MountState) :=
  unmountFrom [] vs

def dsiIncomingClosesession (s : Server) : Except Fault Server :=
  match afpUnmountAllVolumes s.volumes with
  | none => .error .useAfterFree
  | some vs => .ok (loopDisconnect { s with volumes := vs })

def dsiOpensessionReply (s : Server) : Server :=
  { s with txQuantum := beNat (slice s.incomingBuffer (headerSize + 2) 4) }

def nextRequestid (id : Nat) : Nat :=
  if id = 65535 then 0 else id + 1

/-- C `dsi_setup_header`; the second component is the header's `requestid`. -/
def dsiSetupHeader (s : Server) : Server × Nat :=
  let id := nextRequestid s.lastrequestid
  ({ s with lastrequestid := id, expectedrequestid := id }, id)

/-- A bare 16-byte message with the given command and request id, as `dsi_send` transmits it. -/
def bareMessage (command id : Nat) : Bytes :=
  [0, UInt8.ofNat command, UInt8.ofNat (id / 256), UInt8.ofNat id, 0, 0, 0, 0, 0, 0, 0, 0, 0, 0, 0, 0]

/-- C `dsi_send` of a message that nobody waits for. A broken connection returns early. -/
def dsiSendNoWait (s : Server) (sk : Sock) (msg : Bytes) (subcommand : Nat) : Server × Sock :=
  let a := freshAddr s.commandRequests
  let r : Request :=
    { addr := a, requestid := s.lastrequestid, subcommand := subcommand, other := none, wait := 0,
      doneWaiting := false, signals := 0, returnCode := 0 }
  let s := { s with
    commandRequests := s.commandRequests ++ [r]
    stats := { s.stats with requestsPending := s.stats.requestsPending + 1 } }
  match sk.write with
  | (.epipe, sk) | (.ebadf, sk) =>
    ({ s with connectState := .disconnected, sendMutexLocked := true }, sk)
  | (.otherError, sk) => (s.removeRequest a, sk)
  | (.okay, sk) =>
    let s := { s with
      outgoing := s.outgoing ++ [msg]
      stats := { s.stats with txBytes := s.stats.txBytes + msg.length } }
    (s.removeRequest a, sk)

def dsiIncomingTickle (s : Server) (sk : Sock) : Server × Sock :=
  let (s, id) := dsiSetupHeader s
  dsiSendNoWait s sk (bareMessage dsiTickle id) 0

/-- The copy to `attention_buffer` before `dsi_incoming_attention` is started. -/
def copyAttention (s : Server) : Except Fault Server :=
  if s.dataRead ≤ s.attentionQuantum then
    .ok { s with
      attentionBuffer := patch s.attentionBuffer 0 (s.incomingBuffer.take s.dataRead)
      attentionLen := s.dataRead }
  else .error .attentionOverflow

/-- C `afp_read_reply` and `afp_readext_reply`: the payload in the incoming buffer goes to the request's
receive buffer. -/
def afpReadReply (s : Server) (r : Request) (rx : RxBuffer) : Except Fault Server :=
  let size := min (s.dataRead - headerSize) s.rxQuantum
  if s.bufsize < headerSize + size then .error .incomingOverread
  else if rx.data.length < size then .error .rxOverflow
  else
    let rx := { rx with
      data := patch rx.data 0 (slice s.incomingBuffer headerSize size)
      size := size
      errorcode := int32 s.header.errorCode }
    .ok (s.update r.addr (·.received rx))

def dsiCommandReply (s : Server) (sk : Sock) (r : Request) : Except Fault (Server × Sock) :=
  if s.dataRead < headerSize then .ok (s, sk)
  else if r.subcommand = 0 then .ok (s, sk)
  else if r.isRead then
    match r.other with
    | none => .error .nullDereference
    | some rx =>
      match sk.read (sub32 rx.maxsize rx.size) with
      | (none, sk) => .ok (s, sk)
      | (some bs, sk) =>
        if bs = [] then .ok (s, sk)
        else if rx.data.length < rx.size + bs.length then .error .rxOverflow
        else
          let rx := { rx with data := patch rx.data rx.size bs }
          let s := { s.countRx bs.length with dataRead := s.dataRead + bs.length }
          match afpReadReply s r rx with
          | .error f => .error f
          | .ok s => .ok (s, sk)
  else .ok (s, sk)

/-- From `out:` to the end: wake up the waiting caller, or unlink a request nobody waits for. -/
def recvOut (s : Server) (request : Option Request) : Server :=
  match request with
  | none => s
  | some r =>
    if r.wait ≠ 0 then s.update r.addr (·.completed) else s.removeRequest r.addr

/-- From `after_processing:` on. The bytes are moved from `length` and not from `length + 16`. -/
def afterProcessing (s : Server) (sk : Sock) (request : Option Request) : Outcome :=
  let len := s.header.length
  if s.dataRead = len + headerSize then .ok (0, recvOut s.reset request, sk)
  else
    let sizeToCopy := sub32 s.dataRead (len + headerSize)
    if s.bufsize < sizeToCopy then .error .incomingOverflow
    else if s.bufsize < len + sizeToCopy then .error .incomingOverread
    else
      let s := { s with
        incomingBuffer := patch s.incomingBuffer 0 (slice s.incomingBuffer len sizeToCopy)
        dataRead := s.dataRead - sizeToCopy }
      .ok (0, recvOut s request, sk)

def Server.logDispatch (s : Server) (runt : Bool) : Server :=
  { s with
    dispatched := s.dispatched ++ [⟨s.dataRead, s.incomingBuffer.take s.dataRead, runt⟩] }

/-- The `switch` on the command of a complete packet; `none` for a command that it does not know. -/
def switchCommand (s : Server) (sk : Sock) (request : Option Request) (runt : Bool) :
    Except Fault (Option (Server × Sock)) :=
  let command := s.header.command
  if command = dsiCloseSession then (dsiIncomingClosesession s).map fun s => some (s, sk)
  else if command = dsiGetStatus then .ok (some (s, sk))
  else if command = dsiOpenSession then .ok (some (dsiOpensessionReply s, sk))
  else if command = dsiTickle then .ok (some (dsiIncomingTickle s sk))
  else if command = dsiWrite ∨ command = dsiCommand then
    if runt then .ok (some (s, sk))
    else
      match request with
      | none => .error .nullDereference
      | some r => (dsiCommandReply s sk r).map some
  else if command = dsiAttention then (copyAttention s).map fun s => some (s, sk)
  else .ok none

/-- From `process_packet:` on. -/
def processPacket (s : Server) (sk : Sock) (request : Option Request) (runt : Bool) : Outcome :=
  match switchCommand (s.logDispatch runt) sk request runt with
  | .error f => .error f
  | .ok none => .ok (-1, s, sk)
  | .ok (some (s', sk')) => afterProcessing s' sk' request

/-- A packet that is no answer to a read: read on into the incoming buffer, asking for the whole
`length` each time. -/
def readBody (s : Server) (sk : Sock) (request : Option Request) (runt : Bool) : Outcome :=
  if s.dataRead = headerSize ∧ s.header.length = 0 then processPacket s sk request runt
  else
    match sk.read (min s.header.length s.bufsize) with
    | (none, sk) => .ok (-1, s, sk)
    | (some bs, sk) =>
      if bs = [] then .ok (-1, s, sk)
      else
        match s.store bs with
        | .error f => .error f
        | .ok s =>
          if s.dataRead < s.header.length + headerSize then .ok (0, s, sk)
          else if runt then afterProcessing (s.logDispatch true) sk request
          else processPacket s sk request runt

/-- How much of a read reply is asked for next (C `newmax`): what is missing, but no more than fits. -/
def newmax (rx : RxBuffer) (len : Nat) : Nat :=
  min (sub32 rx.maxsize rx.size) (sub32 len rx.size)

/-- An answer to a read: the payload goes straight to the request's receive buffer. -/
def readReply (s : Server) (sk : Sock) (r : Request) : Outcome :=
  match r.other with
  | none => .error .nullDereference
  | some rx =>
    if s.dataRead = headerSize ∧ s.header.length = 0 then
      .ok (0, recvOut s.reset (some r), sk)
    else if rx.maxsize = 0 then .ok (-1, s, sk)
    else
      match sk.read (newmax rx s.header.length) with
      | (none, sk) => .ok (-1, s, sk)
      | (some bs, sk) =>
        if bs = [] then .ok (-1, s, sk)
        else if rx.data.length < rx.size + bs.length then .error .rxOverflow
        else
          let rx := rx.extend bs
          let r := r.received rx
          let s := (s.countRx bs.length).update r.addr (·.received rx)
          if s.header.length = rx.size then
            if s.dataRead = headerSize then
              .ok (0, recvOut s.reset (some r), sk)
            else if s.bufsize < s.dataRead then .error .incomingOverread
            else
              -- bytes behind the header are taken for the start of the next packet
              let s := { s with
                incomingBuffer :=
                  patch s.incomingBuffer 0 (slice s.incomingBuffer headerSize (s.dataRead - headerSize))
                dataRead := s.dataRead - headerSize }
              processPacket s sk (some r) false
          else .ok (0, s, sk)

/-- From `gotenough:` on: find the request the packet answers, whatever its flags say. -/
def gotEnough (s : Server) (sk : Sock) : Outcome :=
  let h := s.header
  match dsiFindRequest s.commandRequests h.requestid with
  | none =>
    if h.flags = dsiReply then readBody s.countRunt sk none true else readBody s sk none false
  | some r =>
    let c := int32 h.errorCode
    let s := s.update r.addr (·.answered c)
    let r := r.answered c
    if r.isRead then readReply s sk r else readBody s sk (some r) false

def dsiRecv (s : Server) (sk : Sock) : Outcome :=
  if s.dataRead < headerSize then
    match sk.read (headerSize - s.dataRead) with
    | (none, sk) => .ok (-1, s, sk)
    | (some bs, sk) =>
      if bs = [] then .ok (-1, s, sk)
      else
        match s.store bs with
        | .error f => .error f
        | .ok s =>
          if s.dataRead = headerSize ∧ s.header.length = 0 then gotEnough s sk else .ok (0, s, sk)
  else gotEnough s sk

/-- What the `read` of the next `dsi_recv` call asks for. -/
def Server.requested (s : Server) : Nat :=
  if s.dataRead < headerSize then headerSize - s.dataRead
  else
    match dsiFindRequest s.commandRequests s.header.requestid with
    | none => min s.header.length s.bufsize
    | some r =>
      if r.isRead then r.other.elim 0 (fun rx => newmax rx s.header.length)
      else min s.header.length s.bufsize

/-- Between two calls the other threads may do to the queue what `f` does. -/
def Server.meanwhile (s : Server) (f : List Request → List Request) : Server :=
  { s with commandRequests := f s.commandRequests }

/-- What `process_server_fds` does with the result of `dsi_recv`. -/
def settle (ret : Int) (s : Server) : Server :=
  if ret = -1 then loopDisconnect s else s

/-- Calls of `dsi_recv` from the main loop (C `process_server_fds`), each after a change of the queue. -/
def recvLoop (s : Server) (sk : Sock) :
    List (List Request → List Request) → Except Fault (Server × Sock)
  | [] => .ok (s, sk)
  | f :: fs =>
    if s.polled then
      (dsiRecv (s.meanwhile f) sk).bind fun o => recvLoop (settle o.1 o.2.1) o.2.2 fs
    else .ok (s, sk)

end AfpfsNg.Dsi
