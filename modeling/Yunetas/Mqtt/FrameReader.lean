import Yunetas.Mqtt.Frames

/-!
# Packets of a stream

The packets of a stream as it is meant to be read: byte after byte, whatever the chunks are.
-/

namespace Yunetas.Mqtt

/-- How far the packet at the end of a stream is read. -/
inductive Progress
  | header (seen : List UInt8)
  /-- Bytes of its payload, of which there are `length`. -/
  | payload (command flags : UInt8) (length : Nat) (seen : List UInt8)
  | closed
  deriving DecidableEq

/-- What was read of a stream. -/
structure Reader where
  packets : List Packet
  progress : Progress
  deriving DecidableEq

/-- A stream of which nothing was read. -/
def Reader.start : Reader := ⟨[], .header []⟩

/-- The checks of a header that is complete: those of the handshake too for the first packet. -/
def Reader.admits (conf : FrameConf) (reader : Reader) (command : UInt8) (length : Nat) : Bool :=
  headerAdmitted conf command length && (!reader.packets.isEmpty || handshakeAdmits conf command length)

/-- A packet is complete. -/
def Reader.complete (conf : FrameConf) (reader : Reader) (packet : Packet) : Reader :=
  ⟨reader.packets ++ [packet],
    if conf.handles reader.packets packet = .accepted then .header [] else .closed⟩

/-- A fixed header is complete. -/
def Reader.headed (conf : FrameConf) (reader : Reader) (command flags : UInt8) (length : Nat) :
    Reader :=
  if !reader.admits conf command length then { reader with progress := .closed }
  else if length = 0 then reader.complete conf ⟨command, flags, []⟩
  else if length + 1 > conf.maxBlock then { reader with progress := .closed }
  else { reader with progress := .payload command flags length [] }

/-- The first packet of a server's connection must be a CONNECT. -/
def Reader.expects (conf : FrameConf) (reader : Reader) (command : UInt8) : Bool :=
  conf.inSession reader.packets || !conf.iamServer || command == cmdConnect

/-- One more byte of a stream. -/
def Reader.absorb (conf : FrameConf) (reader : Reader) (byte : UInt8) : Reader :=
  match reader.progress with
  | .closed => reader
  | .header [] => { reader with progress := .header [byte] }
  | .header (first :: digits) =>
    if digits = [] ∧ ¬reader.expects conf (first &&& 0xF0) then { reader with progress := .closed }
    else if continues byte then
      if digits.length = 3 then { reader with progress := .closed }
      else { reader with progress := .header (first :: digits ++ [byte]) }
    else reader.headed conf (first &&& 0xF0) (first &&& 0x0F) (varintValue (digits ++ [byte]))
  | .payload command flags length seen =>
    if seen.length + 1 < length then
      { reader with progress := .payload command flags length (seen ++ [byte]) }
    else reader.complete conf ⟨command, flags, seen ++ [byte]⟩

/-- Some bytes of a stream. -/
def Reader.read (conf : FrameConf) (reader : Reader) (bytes : List UInt8) : Reader :=
  bytes.foldl (Reader.absorb conf) reader

/-- A packet is taken: it is well formed, admitted and accepted. -/
def Reader.Takes (conf : FrameConf) (reader : Reader) (packet : Packet) : Prop :=
  packet.command &&& 0x0F = 0 ∧ packet.flags &&& 0xF0 = 0 ∧
    reader.expects conf packet.command = true ∧
    reader.admits conf packet.command packet.payload.length = true ∧
    packet.payload.length + 1 ≤ conf.maxBlock ∧ conf.handles reader.packets packet = .accepted

/-- The stream ends between two bytes of a remaining length, of which the first is not one. -/
def Reader.InLength (reader : Reader) : Prop :=
  ∃ first second third rest, reader.progress = .header (first :: second :: third :: rest)

/-- What of a stream reaches the packet handlers: the packets, and whether the connection is closed. -/
structure Outcome where
  packets : List Packet
  closed : Bool
  deriving DecidableEq

/-- What was read reaches the packet handlers. -/
def Reader.outcome (reader : Reader) : Outcome := ⟨reader.packets, reader.progress = .closed⟩

/-- The stream as it was sent, read and received. -/
structure Connection where
  reader : Reader
  receiver : Receiver

/-- A chunk arrives. -/
def Connection.step (conf : FrameConf) (connection : Connection) (gbuf : List UInt8) : Connection :=
  ⟨connection.reader.read conf gbuf, connection.receiver.rxData conf gbuf⟩

/-- A connection that begins. -/
def Connection.start : Connection := ⟨Reader.start, Receiver.start⟩

/-- What was received reached the packet handlers. -/
def Receiver.outcome (receiver : Receiver) : Outcome :=
  ⟨receiver.packets, receiver.state = .disconnected⟩

end Yunetas.Mqtt
