import Pjproject.Conference.Port

/-!
# The conference bridge

`pjmedia_conf` of `conference.c`: adding and removing ports, and connecting them. The calls
are serialised by the bridge's mutex, and the sound callbacks are made at the end of a call.
-/

namespace Pjmedia.Conference

open Function Pj

/-- `pjmedia_conf`. Counters that the source only counts up and down are integers. -/
structure Conf where
  settings : Settings
  maxPorts : Nat
  portCnt : Int
  connectCnt : Int
  ports : Nat → Option ConfPort

inductive Status where
  | success
  | einval
  | enomem
  | etoomany
  | encchannel
  deriving DecidableEq, Repr

/-- The callbacks of `pause_sound` and `resume_sound`. -/
inductive Sound where
  | pause
  | resume
  deriving DecidableEq, Repr

/-- What a call returns, the callbacks it makes, and the bridge it leaves. -/
structure Outcome where
  status : Status
  sounds : List Sound
  conf : Conf

/-- The bridge with the port in a slot changed. -/
def Conf.modify (conf : Conf) (slot : Nat) (change : ConfPort → ConfPort) : Conf :=
  { conf with
    ports := fun index => if index = slot then (conf.ports index).map change else conf.ports index }

/-- The bridge with another port in a slot, or none. -/
def Conf.put (conf : Conf) (slot : Nat) (port : Option ConfPort) : Conf :=
  { conf with ports := update conf.ports slot port }

/-- `pjmedia_conf_create`, with the sound device's port in slot 0. -/
def createConf (settings : Settings) (maxPorts : Nat) : Option Conf :=
  (createConfPort settings none).map fun port =>
    { settings, maxPorts, portCnt := 1, connectCnt := 0
      ports := fun slot => if slot = 0 then some port else none }

/-- `pjmedia_conf_add_port`. -/
def addPort (conf : Conf) (format : Format) : Outcome :=
  if format.channelCount ≠ conf.settings.channelCount ∧
      (format.channelCount ≠ 1 ∧ conf.settings.channelCount ≠ 1) then
    ⟨.encchannel, [], conf⟩
  else if (conf.maxPorts : Int) ≤ conf.portCnt then ⟨.etoomany, [], conf⟩
  else
    let index := (List.range conf.maxPorts).findIdx fun slot => (conf.ports slot).isNone
    match createConfPort conf.settings (some format) with
    | none => ⟨.enomem, [], conf⟩
    | some port =>
      ⟨.success, [], { conf.put index (some port) with portCnt := conf.portCnt + 1 }⟩

/-- A source port with another listener, at a level. -/
def ConfPort.listen (port : ConfPort) (sink : Nat) (adjLevel : Int) : ConfPort :=
  { port with
    listenerSlots := port.listenerSlots ++ [sink]
    listenerAdjLevel := update port.listenerAdjLevel port.listenerSlots.length
      (u32 (adjLevel + normalLevel)) }

/-- A source port without the listener at an index; `pj_array_erase` moves the later slots,
and the levels stay where they are. -/
def ConfPort.unlisten (port : ConfPort) (index : Nat) : ConfPort :=
  { port with listenerSlots := port.listenerSlots.eraseIdx index }

/-- A port with more transmitters, or fewer. -/
def ConfPort.transmit (port : ConfPort) (change : Int) : ConfPort :=
  { port with transmitterCnt := port.transmitterCnt + change }

/-- `pjmedia_conf_connect_port`. -/
def connectPort (conf : Conf) (srcSlot sinkSlot : Nat) (adjLevel : Int) : Outcome :=
  if ¬(srcSlot < conf.maxPorts ∧ sinkSlot < conf.maxPorts) then ⟨.einval, [], conf⟩
  else if adjLevel < -128 then ⟨.einval, [], conf⟩
  else
    match conf.ports srcSlot, conf.ports sinkSlot with
    | some srcPort, some _ =>
      if srcPort.listenerSlots.idxOf sinkSlot = srcPort.listenerSlots.length then
        let startSound := srcPort.listenerSlots.length + 1 = 1 ∧ srcSlot = 0
        ⟨.success, if startSound then [.resume] else [],
          { (conf.modify srcSlot (·.listen sinkSlot adjLevel)).modify sinkSlot (·.transmit 1) with
            connectCnt := conf.connectCnt + 1 }⟩
      else ⟨.success, [], conf⟩
    | _, _ => ⟨.einval, [], conf⟩

/-- `pjmedia_conf_disconnect_port`. -/
def disconnectPort (conf : Conf) (srcSlot sinkSlot : Nat) : Outcome :=
  if ¬(srcSlot < conf.maxPorts ∧ sinkSlot < conf.maxPorts) then ⟨.einval, [], conf⟩
  else
    match conf.ports srcSlot, conf.ports sinkSlot with
    | some srcPort, some _ =>
      let index := srcPort.listenerSlots.idxOf sinkSlot
      if index ≠ srcPort.listenerSlots.length then
        let stopSound := srcSlot = 0 ∧ srcPort.listenerSlots.length - 1 = 0
        ⟨.success, if stopSound then [.pause] else [],
          { (conf.modify srcSlot (·.unlisten index)).modify sinkSlot (·.transmit (-1)) with
            connectCnt := conf.connectCnt - 1 }⟩
      else ⟨.success, [], conf⟩
    | _, _ => ⟨.einval, [], conf⟩

/-- One pass of the first loop of `pjmedia_conf_remove_port`: the port leaves the listeners of
slot `i`. The flag is `stop_sound`. -/
def dropListener (port : Nat) (state : Conf × Bool) (i : Nat) : Conf × Bool :=
  match state.1.ports i with
  | none => state
  | some srcPort =>
    let index := srcPort.listenerSlots.idxOf port
    if index ≠ srcPort.listenerSlots.length then
      ({ state.1.modify i (·.unlisten index) with connectCnt := state.1.connectCnt - 1 },
        state.2 || (i == 0 && srcPort.listenerSlots.length - 1 == 0))
    else state

/-- One pass of the second loop, which takes the last listener off the port to be removed. -/
def dropTransmitter (port : Nat) (conf : Conf) (dstSlot : Nat) : Conf :=
  { (conf.modify dstSlot (·.transmit (-1))).modify port
      (fun confPort => { confPort with listenerSlots := confPort.listenerSlots.dropLast }) with
    connectCnt := conf.connectCnt - 1 }

/-- The listeners of a slot. -/
def Conf.listeners (conf : Conf) (slot : Nat) : List Nat :=
  ((conf.ports slot).map ConfPort.listenerSlots).getD []

/-- `pjmedia_conf_remove_port`. -/
def removePort (conf : Conf) (port : Nat) : Outcome :=
  if ¬port < conf.maxPorts then ⟨.einval, [], conf⟩
  else
    match conf.ports port with
    | none => ⟨.einval, [], conf⟩
    | some _ =>
      let disabled := conf.modify port fun confPort =>
        { confPort with txSetting := .disable, rxSetting := .disable }
      let (conf, stopSound) := (List.range conf.maxPorts).foldl (dropListener port) (disabled, false)
      let conf := (conf.listeners port).reverse.foldl (dropTransmitter port) conf
      ⟨.success, if stopSound then [.pause] else [],
        { conf.put port none with portCnt := conf.portCnt - 1 }⟩

/-- `pjmedia_conf_adjust_conn_level`. -/
def adjustConnLevel (conf : Conf) (srcSlot sinkSlot : Nat) (adjLevel : Int) : Outcome :=
  if ¬(srcSlot < conf.maxPorts ∧ sinkSlot < conf.maxPorts) then ⟨.einval, [], conf⟩
  else if adjLevel < -128 then ⟨.einval, [], conf⟩
  else
    match conf.ports srcSlot, conf.ports sinkSlot with
    | some srcPort, some _ =>
      let index := srcPort.listenerSlots.idxOf sinkSlot
      if index = srcPort.listenerSlots.length then ⟨.einval, [], conf⟩
      else
        ⟨.success, [], conf.modify srcSlot fun port =>
          { port with
            listenerAdjLevel :=
              update port.listenerAdjLevel index (u32 (adjLevel + normalLevel)) }⟩
    | _, _ => ⟨.einval, [], conf⟩

/-- A call on the bridge. -/
inductive Op where
  | addPort (format : Format)
  | connect (srcSlot sinkSlot : Nat) (adjLevel : Int)
  | disconnect (srcSlot sinkSlot : Nat)
  | remove (port : Nat)
  | adjust (srcSlot sinkSlot : Nat) (adjLevel : Int)
  deriving DecidableEq, Repr

/-- One call. -/
def execute (conf : Conf) : Op → Outcome
  | .addPort format => addPort conf format
  | .connect srcSlot sinkSlot adjLevel => connectPort conf srcSlot sinkSlot adjLevel
  | .disconnect srcSlot sinkSlot => disconnectPort conf srcSlot sinkSlot
  | .remove port => removePort conf port
  | .adjust srcSlot sinkSlot adjLevel => adjustConnLevel conf srcSlot sinkSlot adjLevel

end Pjmedia.Conference
