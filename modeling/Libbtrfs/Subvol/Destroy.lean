import Libbtrfs.Subvol.FileSystem
import Libbtrfs.Subvol.Iterator

/-! Destroying a subvolume in an open directory or by its path, alone or with all that is inside it. -/

namespace Libbtrfs

/-- The filesystem as it stands, and the subvolumes that have been destroyed, in their order. -/
structure World where
  fs : Fs
  destroyed : List Place

/-- `BTRFS_IOC_SNAP_DESTROY_V2`, which takes a subvolume away with the directories in it. -/
def World.snapDestroy (world : World) (dir : Place) (name : Bytes) : Except IoError Unit × World :=
  match world.fs.snapDestroy dir name with
  | .error error => (.error error, world)
  | .ok place => (.ok (), ⟨world.fs.without [place], world.destroyed ++ [place]⟩)

/-- `parse_parent_and_name`. -/
def parseParentAndName (path : Bytes) : Bytes × Bytes :=
  -- Separators at the end do not count, unless there is nothing else.
  let bytes :=
    match rposition (· ≠ separator) path with
    | some p => path.take (p + 1)
    | none => path
  match rposition (· = separator) bytes with
  | some p => (if p = 0 then [separator] else bytes.take p, bytes.drop (p + 1))
  | none => (curDir, bytes)

/-- `open_parent_with_name` over any call that opens a directory. -/
def openParentWith (openat : Place → Bytes → Except IoError Place) (cwd : Place) (path : Bytes) :
    Except IoError (Place × Bytes) :=
  let (dirname, basename) := parseParentAndName path
  if 0 ∈ dirname then .error (.kind .invalidInput)
  else
    match openat cwd dirname with
    | .error error => .error error
    | .ok parent => .ok (parent, basename)

/-- `open_parent_with_name`. A path that is opened without a directory is taken from the current one. -/
def openParentWithName (fs : Fs) (cwd : Place) (path : Bytes) : Except IoError (Place × Bytes) :=
  openParentWith fs.openat cwd path

/-- `fd::is_subvol`, for a directory of the filesystem. -/
def isSubvol (fs : Fs) (f : Place) : Except IoError Bool :=
  match fs.at? f with
  | none => .error (.os enoent)
  | some dir => .ok dir.Subvol

namespace Subvol

section Calling

variable {State : Type} (openat : State → Place → Bytes → Except IoError Place)
  (ioctl : State → Place → Bytes → Except IoError Unit × State)

/-- An ioctl is called with a name, if that fits its arguments. -/
def namedIoctl (name : Bytes) (state : State) (ioctl : State → Except IoError Unit × State) :
    Except IoError Unit × State :=
  match setVolName name with
  | .error error => (.error error, state)
  | .ok () =>
    let (result, state) := ioctl state
    (btrfsIoctl result, state)

/-- `subvol::fd::destroy` over any ioctl for it. -/
def Fd.destroyWith (state : State) (dir : Place) (name : Bytes) : Except IoError Unit × State :=
  namedIoctl name state fun state => ioctl state dir name

/-- `subvol::destroy` over any calls for it. -/
def destroyWith (state : State) (cwd : Place) (subvol : Bytes) : Except IoError Unit × State :=
  match openParentWith (openat state) cwd subvol with
  | .error error => (.error error, state)
  | .ok (dir, name) => Fd.destroyWith ioctl state dir name

end Calling

/-- `subvol::fd::destroy`. -/
def Fd.destroy (world : World) (dir : Place) (name : Bytes) : Except IoError Unit × World :=
  Fd.destroyWith World.snapDestroy world dir name

/-- `subvol::destroy`. -/
def destroy (world : World) (cwd : Place) (subvol : Bytes) : Except IoError Unit × World :=
  destroyWith (fun world => world.fs.openat) World.snapDestroy world cwd subvol

/-- The variables of `destroy_all` in its loop, and the calls of `on_error` made so far. -/
structure Sweep where
  world : World
  baseSubvol : Bytes
  errors : List (Option Bytes × IoError)
  -- The panic that ended the loop, if one did.
  panicked : Option Failure

/-- The end of a round: `on_error` is called if the subvolume at a path could not be destroyed. -/
def Sweep.record (sweep : Sweep) (path : Bytes) : Except IoError Unit × World → Sweep
  | (.ok (), world) => { sweep with world := world, baseSubvol := path }
  | (.error error, world) =>
    { sweep with
      world := world, baseSubvol := path, errors := sweep.errors ++ [(some path, error)] }

section Calling

variable (kernel : Fs → Kernel Place) (ioctl : World → Place → Bytes → Except IoError Unit × World)

/-- One round of the loop of `destroy_all`, for what the iterator returned, over any calls for it. -/
def Sweep.roundWith (cwd : Place) (baseLen : Nat) (sweep : Sweep)
    (subvol : Except IoError (SubvolItem Place)) : Sweep :=
  if sweep.panicked.isSome then sweep
  else
    match subvol with
    | .error error => { sweep with errors := sweep.errors ++ [(none, error)] }
    | .ok vol =>
      match vol.pathText with
      | .error failure => { sweep with panicked := some failure }
      | .ok text =>
        -- The path is taken from the current directory, like that of every other caller.
        let path := sweep.baseSubvol.take baseLen ++ text
        sweep.record path
          (destroyWith (fun world => (kernel world.fs).openat) ioctl sweep.world cwd path)

/-- The end of `destroy_all`, behind its loop, over any ioctl for it. -/
def Fd.finishWith (dir : Place) (name : Bytes) (sweep : Sweep) : Outcome Unit × Sweep :=
  match sweep.panicked with
  | some failure => (.error failure, sweep)
  | none =>
    match Fd.destroyWith ioctl sweep.world dir name with
    | (.ok (), world) => (.ok (), { sweep with world := world })
    | (.error error, world) => (.error (.io error), { sweep with world := world })

/-- `subvol::fd::destroy_all` over any calls for it, with the calls of `on_error`. -/
def Fd.destroyAllWith (cwd : Place) (world : World) (dir : Place) (name : Bytes) (fuel : Nat) :
    Option (Outcome Unit × Sweep) :=
  let sweep : Sweep := ⟨world, name ++ [separator], [], none⟩
  if 0 ∈ name then some (.error (.io (.kind .invalidInput)), sweep)
  else
    match (kernel world.fs).openat dir name with
    | .error error => some (.error (.io error), sweep)
    | .ok base =>
      match isSubvol world.fs base with
      | .error error => some (.error (.io error), sweep)
      | .ok false => some (.error (.io (.kind .unsupported)), sweep)
      | .ok true =>
        match Iter.new (kernel world.fs) base (Flags.postOrder.union .getPath) with
        | .error error => some (.error (.io error), sweep)
        | .ok iter =>
          (forEach (fun sweep : Sweep => kernel sweep.world.fs)
            (Sweep.roundWith kernel ioctl cwd (name.length + 1)) fuel sweep iter).map
              (Fd.finishWith ioctl dir name)

end Calling

/-- One round of the loop of `destroy_all`. -/
def Sweep.round (cwd : Place) (baseLen : Nat) (sweep : Sweep)
    (subvol : Except IoError (SubvolItem Place)) : Sweep :=
  Sweep.roundWith Fs.kernel World.snapDestroy cwd baseLen sweep subvol

/-- The end of `destroy_all`, behind its loop. -/
def Fd.finish (dir : Place) (name : Bytes) (sweep : Sweep) : Outcome Unit × Sweep :=
  Fd.finishWith World.snapDestroy dir name sweep

/-- `subvol::fd::destroy_all`, with the calls of `on_error`, if the loop gets by with the fuel. -/
def Fd.destroyAll (cwd : Place) (world : World) (dir : Place) (name : Bytes) (fuel : Nat) :
    Option (Outcome Unit × Sweep) :=
  Fd.destroyAllWith Fs.kernel World.snapDestroy cwd world dir name fuel

end Subvol

end Libbtrfs
