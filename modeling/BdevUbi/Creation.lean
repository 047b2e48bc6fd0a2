import BdevUbi.System

/-!
Creation and deletion of ubi bdevs, and the removal of their base bdevs: the rest of
`bdev_ubi.c`. Creation is a ladder of calls with one asynchronous step, the metadata read;
every failure ends in `ubi_finish_create`, which releases what the bdev's fields say it
holds. `Host` records what the module holds of SPDK's resources, by the ubi bdev that holds
them. A lower-level call takes the value it returns as an argument.
-/

namespace BdevUbi

abbrev UbiId := Nat
abbrev BaseId := Nat
abbrev ThreadId := Nat

abbrev EPERM : Int := -1
abbrev ENOMEM : Int := -12
abbrev EEXIST : Int := -17
abbrev ENODEV : Int := -19

/-- The fields of the base bdev that creation reads. -/
structure BaseBdev where
  blocklen : Nat
  blockcnt : Nat
  writeCache : Bool
  blockcnt_lt : blockcnt < 2 ^ 64

/-- What `stat` and later reads find at the image path. -/
structure ImageFile where
  size : Nat
  bytes : Bytes
  size_lt : size < 2 ^ 63

/-- `struct spdk_ubi_bdev_opts`, with the file at the image path. -/
structure UbiBdevOpts where
  name : Option String
  imagePath : String
  image : Option ImageFile
  baseBdev : BaseId
  stripeSizeKb : Nat
  noSync : Bool
  copyOnRead : Bool
  directio : Bool

abbrev utf8 (text : String) : List UInt8 := text.toByteArray.data.toList

abbrev ubiPathLen : Nat := 1024

/-- What `strncpy` and the terminating zero leave of the path. -/
def storedPath (path : String) : List UInt8 := (utf8 path).take (ubiPathLen - 1)

/-- `struct ubi_bdev` as creation fills it in, with the context's flag for the io_device.
`baseBdev` is set when the base bdev is open and claimed. -/
structure UbiBdevRecord where
  name : Option String
  thread : ThreadId
  baseBdev : Option BaseId
  imagePath : List UInt8
  directio : Bool
  device : Option UbiBdev
  writeCache : Bool
  registeredIoDevice : Bool
  table : Option StripeTable

/-- `calloc`. -/
def UbiBdevRecord.zeroed : UbiBdevRecord := ⟨none, 0, none, [], false, none, false, false, none⟩

/-- `removing` is SPDK's status of a base bdev. `answers` holds the calls of `done_fn`,
newest first; it, `refused` and `handled` are history variables: the metadata reads whose
submission failed, and the base bdevs whose REMOVE event the module has handled. -/
structure Host where
  removing : BaseId → Bool
  claimed : BaseId → Bool
  record : UbiId → Option UbiBdevRecord
  descs : UbiId → List BaseId
  tempChannels : UbiId → Nat
  ioDevices : UbiId → Nat
  head : List UbiId
  registered : UbiId → Bool
  unregistering : UbiId → Bool
  started : UbiId → Bool
  reading : UbiId → Bool
  closing : UbiId → List BaseId
  answers : List (UbiId × Int)
  refused : UbiId → Bool
  handled : BaseId → Bool

/-- What the lower layers answer during `bdev_ubi_create`. -/
structure CreateEnv where
  thread : ThreadId
  calloc : Bool
  /-- whether `strdup` finds memory for the name -/
  strdup : Bool
  openRet : Int
  claimRet : Int
  /-- whether `spdk_bdev_get_io_channel` returns one -/
  channel : Bool
  readRet : Int

inductive BdevEventType where
  | remove | resize | mediaManagement
  deriving DecidableEq, Repr

open Function (update)

namespace Host

def openBase (h : Host) (id : UbiId) (base : BaseId) : Host :=
  { h with descs := update h.descs id (base :: h.descs id) }

def closeBase (h : Host) (id : UbiId) (base : BaseId) : Host :=
  { h with descs := update h.descs id ((h.descs id).erase base) }

/-- `spdk_bdev_module_release_bdev`. -/
def release (h : Host) (base : BaseId) : Host := { h with claimed := update h.claimed base false }

def setRecord (h : Host) (id : UbiId) (r : UbiBdevRecord) : Host :=
  { h with record := update h.record id (some r) }

def nameOf (h : Host) (id : UbiId) : Option String := (h.record id).bind UbiBdevRecord.name

end Host

/-- A bdev that is being removed is not opened, and a claimed one not claimed again. -/
def configureBaseBdev (h : Host) (id : UbiId) (base : BaseId) (openRet claimRet : Int) :
    Int × Host :=
  if h.removing base then (ENODEV, h)
  else if openRet ≠ 0 then (openRet, h)
  else
    let opened := h.openBase id base
    let rc := if h.claimed base then EPERM else claimRet
    if rc ≠ 0 then (rc, opened.closeBase id base)
    else (0, { opened with claimed := update opened.claimed base true })

/-- A bdev of that name may exist already; other reasons to fail are in `ret`, a name not yet
given up by a bdev that is being unregistered among them. -/
def spdkBdevRegister (h : Host) (id : UbiId) (ret : Int) : Int :=
  if h.head.any fun other => !h.unregistering other && h.nameOf other == h.nameOf id then EEXIST
  else ret

/-- The cleanup of `ubi_finish_create`. -/
def freeUbiBdev (h : Host) (id : UbiId) (r : UbiBdevRecord) : Host :=
  let closed := match r.baseBdev with
    | some base => (h.release base).closeBase id base
    | none => h
  let unregistered := if r.registeredIoDevice then
      { closed with ioDevices := update closed.ioDevices id (closed.ioDevices id - 1) }
    else closed
  { unregistered with record := update unregistered.record id none }

def ubiFinishCreate (h : Host) (id : UbiId) (status registerRet : Int) : Host :=
  let final := if status = 0 then spdkBdevRegister h id registerRet else status
  let finished := if final = 0 then
      { h with registered := update h.registered id true, head := h.head ++ [id] }
    else match h.record id with
      | some r => freeUbiBdev h id r
      | none => h
  { finished with answers := (id, final) :: finished.answers }

/-- The temporary channel is not put when the submission fails. -/
def ubiStartReadMetadata (h : Host) (id : UbiId) (env : CreateEnv) : Host :=
  if !env.channel then ubiFinishCreate h id ENOMEM 0
  else
    let got := { h with tempChannels := update h.tempChannels id (h.tempChannels id + 1) }
    if env.readRet ≠ 0 then
      ubiFinishCreate { got with refused := update got.refused id true } id env.readRet 0
    else { got with reading := update got.reading id true }

/-- A result together with the fact that it was returned. -/
def returned {ε α : Type} (x : Except ε α) : Except ε { a // x = .ok a } :=
  match x with
  | .error e => .error e
  | .ok a => .ok ⟨a, rfl⟩

/-- `ubi_init_layout_params`, with the fields it is given and fills in. -/
def initDevice (opts : UbiBdevOpts) (base : BaseBdev) : Except Int UbiBdev :=
  match opts.image with
  | none => .error EINVAL
  | some image =>
    (returned (ubiInitLayoutParams (some image.size) base.blocklen base.blockcnt
        opts.stripeSizeKb)).map fun params =>
      { blocklen := base.blocklen
        blockcnt := base.blockcnt
        imageSize := image.size
        image := image.bytes
        stripeSizeKb := opts.stripeSizeKb
        noSync := opts.noSync
        copyOnRead := opts.copyOnRead
        layout := params.val
        imageSize_lt := image.size_lt
        blockcnt_lt := base.blockcnt_lt
        init := params.property }

/-- `bases` are the base bdevs by name; the context is new and zeroed. -/
def bdevUbiCreate (bases : BaseId → BaseBdev) (h : Host) (id : UbiId) (opts : Option UbiBdevOpts)
    (env : CreateEnv) : Host :=
  let called := { h with
    started := update h.started id true
    record := update h.record id none }
  match opts with
  | none => ubiFinishCreate called id EINVAL 0
  | some opts =>
    if !env.calloc then ubiFinishCreate called id ENOMEM 0
    else
      let r := { UbiBdevRecord.zeroed with name := opts.name.filter fun _ => env.strdup }
      let named := called.setRecord id r
      if r.name = none then ubiFinishCreate named id ENOMEM 0
      else
        let r := { r with thread := env.thread }
        let (rc, configured) :=
          configureBaseBdev (named.setRecord id r) id opts.baseBdev env.openRet env.claimRet
        if rc ≠ 0 then ubiFinishCreate configured id rc 0
        else
          let r := { r with
            baseBdev := some opts.baseBdev
            directio := opts.directio
            imagePath := storedPath opts.imagePath }
          match initDevice opts (bases opts.baseBdev) with
          | .error rc => ubiFinishCreate (configured.setRecord id r) id rc 0
          | .ok device =>
            let r := { r with
              device := some device
              writeCache := (bases opts.baseBdev).writeCache
              registeredIoDevice := true }
            let ready := configured.setRecord id r
            ubiStartReadMetadata
              { ready with ioDevices := update ready.ioDevices id (ready.ioDevices id + 1) } id env

/-- The callback of the metadata read: the temporary channel is put before the metadata is
looked at. -/
def finishReadMetadata (h : Host) (id : UbiId) (success : Bool) (found : Bytes)
    (registerRet : Int) : Host :=
  let put := { h with
    reading := update h.reading id false
    tempChannels := update h.tempChannels id (h.tempChannels id - 1) }
  match h.record id with
  | none => put
  | some r =>
    match ubiFinishReadMetadata ((r.device.map UbiBdev.stripeSizeKb).getD 0) success found with
    | .error rc => ubiFinishCreate put id rc 0
    | .ok table =>
      ubiFinishCreate (put.setRecord id { r with table := some table }) id 0 registerRet

/-- `spdk_bdev_unregister`; SPDK calls `ubi_destruct` later. -/
def spdkBdevUnregister (h : Host) (id : UbiId) : Host :=
  { h with unregistering := update h.unregistering id true }

def bdevUbiDelete (h : Host) (name : String) : Int × Host :=
  match h.head.find? fun id => !h.unregistering id && h.nameOf id == some name with
  | none => (ENODEV, h)
  | some id => (0, spdkBdevUnregister h id)

def ubiCloseBaseBdev (h : Host) (id : UbiId) (base : BaseId) : Host := h.closeBase id base

/-- The base bdev is closed on the thread that opened it: at once, or by a message. Thread 0
stands for the null pointer. -/
def ubiDestruct (h : Host) (id : UbiId) (thread : ThreadId) : Host :=
  match h.record id with
  | none => h
  | some r => match r.baseBdev with
    | none => h
    | some base =>
      let removed := ({ h with head := h.head.erase id }).release base
      let closed := if r.thread ≠ 0 ∧ r.thread ≠ thread then
          { removed with closing := update removed.closing id (base :: removed.closing id) }
        else ubiCloseBaseBdev removed id base
      { closed with
        ioDevices := update closed.ioDevices id (closed.ioDevices id - 1)
        registered := update closed.registered id false
        unregistering := update closed.unregistering id false
        record := update closed.record id none }

def ubiBdevFindByBaseBdev (h : Host) (base : BaseId) : Option UbiId :=
  h.head.find? fun id => (h.record id).bind UbiBdevRecord.baseBdev == some base

def ubiHandleBaseBdevRemoveEvent (h : Host) (base : BaseId) : Host :=
  match ubiBdevFindByBaseBdev h base with
  | none => h
  | some id => spdkBdevUnregister h id

def ubiHandleBaseBdevEvent (h : Host) (type : BdevEventType) (base : BaseId) : Host :=
  match type with
  | .remove =>
    let done := ubiHandleBaseBdevRemoveEvent h base
    { done with handled := update done.handled base true }
  | .resize | .mediaManagement => h

inductive HostEvent where
  | create (id : UbiId) (opts : Option UbiBdevOpts) (env : CreateEnv)
  | metadataRead (id : UbiId) (success : Bool) (found : Bytes) (registerRet : Int)
  | delete (name : String)
  | destruct (id : UbiId) (thread : ThreadId)
  /-- the message that closes a base bdev on its own thread -/
  | closeBase (id : UbiId) (base : BaseId)
  /-- SPDK begins to remove a base bdev -/
  | removeBase (base : BaseId)
  /-- an event reaches an open descriptor -/
  | baseEvent (id : UbiId) (type : BdevEventType) (base : BaseId)

def hostStep (bases : BaseId → BaseBdev) (h : Host) : HostEvent → Except Halt Host
  | .create id opts env =>
    if h.started id then .error .disabled else .ok (bdevUbiCreate bases h id opts env)
  | .metadataRead id success found registerRet =>
    if h.reading id then .ok (finishReadMetadata h id success found registerRet)
    else .error .disabled
  | .delete name => .ok (bdevUbiDelete h name).2
  | .destruct id thread =>
    if h.unregistering id then .ok (ubiDestruct h id thread) else .error .disabled
  | .closeBase id base =>
    if base ∈ h.closing id then
      .ok (ubiCloseBaseBdev { h with
        closing := update h.closing id ((h.closing id).erase base) } id base)
    else .error .disabled
  | .removeBase base => .ok { h with removing := update h.removing base true }
  | .baseEvent id type base =>
    if base ∈ h.descs id ∧ (type = .remove → h.removing base = true) then
      .ok (ubiHandleBaseBdevEvent h type base)
    else .error .disabled

def emptyHost : Host where
  removing _ := false
  claimed _ := false
  record _ := none
  descs _ := []
  tempChannels _ := 0
  ioDevices _ := 0
  head := []
  registered _ := false
  unregistering _ := false
  started _ := false
  reading _ := false
  closing _ := []
  answers := []
  refused _ := false
  handled _ := false

abbrev HostReach (bases : BaseId → BaseBdev) (allowed : Host → HostEvent → Prop) (h : Host) :
    Prop :=
  Runs.Reach (hostStep bases) allowed emptyHost h

/-- A creation of ubi bdev `id` on this base bdev is waiting for its metadata. -/
def Creating (h : Host) (id : UbiId) (base : BaseId) : Prop :=
  h.reading id = true ∧ (h.record id).bind UbiBdevRecord.baseBdev = some base

end BdevUbi
