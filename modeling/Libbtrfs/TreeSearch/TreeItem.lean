import Libbtrfs.TreeSearch.Layout
import Libbtrfs.TreeSearch.RootItem
import Libbtrfs.TreeSearch.RootRef

/-! The views of the items of a tree, and what their accessors read from the buffer of a search. -/

namespace Libbtrfs.Search

open Packed

/-- A view of an item, which is a pointer to its data. -/
class TreeItem (T : Type) where
  key : UInt32
  fromSearchUnckeched : Bytes → T

/-- `TreeItem::from_search`. -/
def TreeItem.fromSearch {T : Type} [TreeItem T] (memory : Bytes) (key : UInt32) : Option T :=
  if key = TreeItem.key T then some (fromSearchUnckeched memory) else none

/-- `SearchItem::get`. -/
def SearchItem.get (T : Type) [TreeItem T] (item : SearchItem) : Option T :=
  TreeItem.fromSearch item.payload item.ty

/-- A view with a name behind the fixed part of the item. -/
class ItemNameMeta (T : Type) where
  nameLen : T → Nat
  namePtr : T → Bytes

/-- `TreeItemName::name_as_bytes`. -/
def nameAsBytes {T : Type} [ItemNameMeta T] (item : T) : Except IoError Bytes :=
  let bytes := (ItemNameMeta.namePtr item).take (ItemNameMeta.nameLen item)
  if 0 ∈ bytes then .error (.kind .invalidData) else .ok bytes

section Macro

variable (layout : Struct Path) (memory : Bytes) (name : FieldName)

/-- `tree_item_get!` for a `__u8`. -/
def getByte : UInt8 := u8 (memory.drop (layout.offset [name]))

/-- `tree_item_get!` for a `__le16`. -/
def getLe16 : UInt16 := le16 (memory.drop (layout.offset [name]))

/-- `tree_item_get!` for a `__le32`. -/
def getLe32 : UInt32 := le32 (memory.drop (layout.offset [name]))

/-- `tree_item_get!` for a `__le64`. -/
def getLe64 : UInt64 := le64 (memory.drop (layout.offset [name]))

/-- `tree_item_get!` for a `Uuid`. -/
def getUuid : Bytes := (memory.drop (layout.offset [name])).take 16

/-- `&raw const (*self.0).field`, a pointer to a structure inside another one. -/
def getMember : Bytes := memory.drop (layout.start name)

end Macro

/-- What accessors return, each under the name of the field that it is named after. -/
abbrev Table := List (Path × Value)

/-- What an accessor returns: a number. -/
def told (name : FieldName) (value : Nat) : Path × Value := ([name], .int value)

/-- What an accessor returns: bytes. -/
def toldBytes (name : FieldName) (bytes : Bytes) : Path × Value := ([name], .bytes bytes)

/-- `Timespec`. -/
structure Timespec where
  memory : Bytes

/-- `libc::timespec`. -/
structure LibcTimespec where
  tvSec : Int64
  tvNsec : Int64
  deriving DecidableEq

namespace Timespec

variable (time : Timespec)

/-- `Timespec::nsec`. -/
def nsec : UInt32 := getLe32 timespec time.memory .nsec

/-- `Timespec::sec`. -/
def sec : UInt64 := getLe64 timespec time.memory .sec

/-- `From<Timespec> for btrfs_ioctl_timespec`. -/
def toIoctl : IoctlTimespec where
  sec := getLe64 timespec time.memory .sec
  nsec := getLe32 timespec time.memory .nsec

/-- `From<Timespec> for libc::timespec`, which exchanges the two fields. -/
def toLibc : LibcTimespec where
  tvNsec := (getLe64 timespec time.memory .sec).toInt64
  tvSec := (getLe32 timespec time.memory .nsec).toUInt64.toInt64

/-- What the accessors return. -/
def table : Table := [told .sec time.sec.toNat, told .nsec time.nsec.toNat]

/-- What the two conversions return. -/
def converted : IoctlTimespec × LibcTimespec := (time.toIoctl, time.toLibc)

end Timespec

/-- `DiskKey`. -/
structure DiskKey where
  memory : Bytes

namespace DiskKey

variable (key : DiskKey)

/-- `DiskKey::objectid`. -/
def objectid : UInt64 := getLe64 diskKey key.memory .objectid

/-- `DiskKey::offset`. -/
def offset : UInt64 := getLe64 diskKey key.memory .offset

/-- `DiskKey::type_`. -/
def type_ : UInt8 := getByte diskKey key.memory .type_

/-- What the accessors return. -/
def table : Table :=
  [told .objectid key.objectid.toNat, told .type_ key.type_.toNat, told .offset key.offset.toNat]

end DiskKey

/-- `InodeItem`. -/
structure InodeItem where
  memory : Bytes

instance : TreeItem InodeItem := ⟨1, InodeItem.mk⟩

namespace InodeItem

variable (item : InodeItem)

/-- `InodeItem::generation`. -/
def generation : UInt64 := getLe64 inodeItem item.memory .generation

/-- `InodeItem::transid`. -/
def transid : UInt64 := getLe64 inodeItem item.memory .transid

/-- `InodeItem::size`. -/
def size : UInt64 := getLe64 inodeItem item.memory .size

/-- `InodeItem::nbytes`. -/
def nbytes : UInt64 := getLe64 inodeItem item.memory .nbytes

/-- `InodeItem::block_group`. -/
def blockGroup : UInt64 := getLe64 inodeItem item.memory .blockGroup

/-- `InodeItem::nlink`. -/
def nlink : UInt32 := getLe32 inodeItem item.memory .nlink

/-- `InodeItem::uid`. -/
def uid : UInt32 := getLe32 inodeItem item.memory .uid

/-- `InodeItem::gid`. -/
def gid : UInt32 := getLe32 inodeItem item.memory .gid

/-- `InodeItem::mode`. -/
def mode : UInt32 := getLe32 inodeItem item.memory .mode

/-- `InodeItem::rdev`. -/
def rdev : UInt64 := getLe64 inodeItem item.memory .rdev

/-- `InodeItem::flags`. -/
def flags : UInt64 := getLe64 inodeItem item.memory .flags

/-- `InodeItem::sequence`. -/
def sequence : UInt64 := getLe64 inodeItem item.memory .sequence

/-- `InodeItem::atime`. -/
def atime : Timespec := ⟨getMember inodeItem item.memory .atime⟩

/-- `InodeItem::ctime`. -/
def ctime : Timespec := ⟨getMember inodeItem item.memory .ctime⟩

/-- `InodeItem::mtime`. -/
def mtime : Timespec := ⟨getMember inodeItem item.memory .mtime⟩

/-- `InodeItem::otime`. -/
def otime : Timespec := ⟨getMember inodeItem item.memory .otime⟩

/-- What the accessors return. -/
def table : Table :=
  [told .generation item.generation.toNat, told .transid item.transid.toNat,
    told .size item.size.toNat, told .nbytes item.nbytes.toNat,
    told .blockGroup item.blockGroup.toNat, told .nlink item.nlink.toNat, told .uid item.uid.toNat,
    told .gid item.gid.toNat, told .mode item.mode.toNat, told .rdev item.rdev.toNat,
    told .flags item.flags.toNat, told .sequence item.sequence.toNat] ++
  under .atime item.atime.table ++ under .ctime item.ctime.table ++
  under .mtime item.mtime.table ++ under .otime item.otime.table

/-- The times that the accessors return. -/
def times : List Timespec := [item.atime, item.ctime, item.mtime, item.otime]

end InodeItem

instance : TreeItem RootItem := ⟨RootItem.key, RootItem.mk⟩

namespace RootItem

variable (ri : RootItem)

/-- `RootItem::inode_item`. -/
def inodeItem : InodeItem := ⟨getMember rootItem ri.memory .inode⟩

/-- `RootItem::root_dirid`. -/
def rootDirid : UInt64 := getLe64 rootItem ri.memory .rootDirid

/-- `RootItem::bytenr`. -/
def bytenr : UInt64 := getLe64 rootItem ri.memory .bytenr

/-- `RootItem::byte_limit`. -/
def byteLimit : UInt64 := getLe64 rootItem ri.memory .byteLimit

/-- `RootItem::bytes_used`. -/
def bytesUsed : UInt64 := getLe64 rootItem ri.memory .bytesUsed

/-- `RootItem::last_snapshot`. -/
def lastSnapshot : UInt64 := getLe64 rootItem ri.memory .lastSnapshot

/-- `RootItem::refs`. -/
def refs : UInt32 := getLe32 rootItem ri.memory .refs

/-- `RootItem::drop_progress`. -/
def dropProgress : DiskKey := ⟨getMember rootItem ri.memory .dropProgress⟩

/-- `RootItem::drop_level`. -/
def dropLevel : UInt8 := getByte rootItem ri.memory .dropLevel

/-- `RootItem::generation_v2`. -/
def generationV2 : UInt64 := getLe64 rootItem ri.memory .generationV2

/-- `RootItem::ctime`, in front of its conversion. -/
def ctimeView : Timespec := ⟨getMember rootItem ri.memory .ctime⟩

/-- `RootItem::otime`, in front of its conversion. -/
def otimeView : Timespec := ⟨getMember rootItem ri.memory .otime⟩

/-- `RootItem::stime`, in front of its conversion. -/
def stimeView : Timespec := ⟨getMember rootItem ri.memory .stime⟩

/-- `RootItem::rtime`, in front of its conversion. -/
def rtimeView : Timespec := ⟨getMember rootItem ri.memory .rtime⟩

/-- What the accessors return. -/
def table : Table :=
  under .inode ri.inodeItem.table ++
  [told .generation ri.generation.toNat, told .rootDirid ri.rootDirid.toNat,
    told .bytenr ri.bytenr.toNat, told .byteLimit ri.byteLimit.toNat,
    told .bytesUsed ri.bytesUsed.toNat, told .lastSnapshot ri.lastSnapshot.toNat,
    told .flags ri.flags.toNat, told .refs ri.refs.toNat] ++
  under .dropProgress ri.dropProgress.table ++
  [told .dropLevel ri.dropLevel.toNat, told .generationV2 ri.generationV2.toNat,
    toldBytes .uuid ri.uuid, toldBytes .parentUuid ri.parentUuid,
    toldBytes .receivedUuid ri.receivedUuid, told .ctransid ri.ctransid.toNat,
    told .otransid ri.otransid.toNat, told .stransid ri.stransid.toNat,
    told .rtransid ri.rtransid.toNat] ++
  under .ctime ri.ctimeView.table ++ under .otime ri.otimeView.table ++
  under .stime ri.stimeView.table ++ under .rtime ri.rtimeView.table

/-- The times that the accessors return, the ones of the inode included. -/
def times : List Timespec :=
  ri.inodeItem.times ++ [ri.ctimeView, ri.otimeView, ri.stimeView, ri.rtimeView]

end RootItem

instance : TreeItem RootRef := ⟨RootRef.key, RootRef.mk⟩

instance : ItemNameMeta RootRef := ⟨RootRef.nameLen, fun rr => rr.memory.drop rootRef.size⟩

/-- `RootRef::sequence`. -/
def RootRef.sequence (rr : RootRef) : UInt64 := getLe64 rootRef rr.memory .sequence

/-- What the accessors return. -/
def RootRef.table (rr : RootRef) : Table :=
  [told .dirid rr.dirid.toNat, told .sequence rr.sequence.toNat]

/-- `Stripe`. -/
structure Stripe where
  memory : Bytes

namespace Stripe

variable (part : Stripe)

/-- `Stripe::devid`. -/
def devid : UInt64 := getLe64 stripe part.memory .devid

/-- `Stripe::offset`. -/
def offset : UInt64 := getLe64 stripe part.memory .offset

/-- `Stripe::dev_uuid`. -/
def devUuid : Bytes := getUuid stripe part.memory .devUuid

/-- What the accessors return. -/
def table : Table :=
  [told .devid part.devid.toNat, told .offset part.offset.toNat, toldBytes .devUuid part.devUuid]

end Stripe

/-- `ChunkItem`. -/
structure ChunkItem where
  memory : Bytes

instance : TreeItem ChunkItem := ⟨228, ChunkItem.mk⟩

namespace ChunkItem

variable (item : ChunkItem)

/-- `ChunkItem::length`. -/
def length : UInt64 := getLe64 chunk item.memory .length

/-- `ChunkItem::owner`. -/
def owner : UInt64 := getLe64 chunk item.memory .owner

/-- `ChunkItem::stripe_len`. -/
def stripeLen : UInt64 := getLe64 chunk item.memory .stripeLen

/-- `ChunkItem::type_`. -/
def type_ : UInt64 := getLe64 chunk item.memory .type_

/-- `ChunkItem::io_align`. -/
def ioAlign : UInt32 := getLe32 chunk item.memory .ioAlign

/-- `ChunkItem::io_width`. -/
def ioWidth : UInt32 := getLe32 chunk item.memory .ioWidth

/-- `ChunkItem::sector_size`. -/
def sectorSize : UInt32 := getLe32 chunk item.memory .sectorSize

/-- `ChunkItem::num_stripes`. -/
def numStripes : UInt16 := getLe16 chunk item.memory .numStripes

/-- `ChunkItem::sub_stripes`, which reads another field. -/
def subStripes : UInt64 := getLe64 chunk item.memory .stripeLen

/-- `ChunkItem::stripts`. -/
def stripts : Stripe := ⟨getMember chunk item.memory .stripe⟩

/-- What the accessors return. -/
def table : Table :=
  [told .length item.length.toNat, told .owner item.owner.toNat,
    told .stripeLen item.stripeLen.toNat, told .type_ item.type_.toNat,
    told .ioAlign item.ioAlign.toNat, told .ioWidth item.ioWidth.toNat,
    told .sectorSize item.sectorSize.toNat, told .numStripes item.numStripes.toNat,
    told .subStripes item.subStripes.toNat] ++
  under .stripe item.stripts.table

end ChunkItem

/-- `DevItem`. -/
structure DevItem where
  memory : Bytes

instance : TreeItem DevItem := ⟨216, DevItem.mk⟩

namespace DevItem

variable (item : DevItem)

/-- `DevItem::devid`. -/
def devid : UInt64 := getLe64 devItem item.memory .devid

/-- `DevItem::total_bytes`. -/
def totalBytes : UInt64 := getLe64 devItem item.memory .totalBytes

/-- `DevItem::bytes_used`. -/
def bytesUsed : UInt64 := getLe64 devItem item.memory .bytesUsed

/-- `DevItem::io_align`. -/
def ioAlign : UInt32 := getLe32 devItem item.memory .ioAlign

/-- `DevItem::io_width`. -/
def ioWidth : UInt32 := getLe32 devItem item.memory .ioWidth

/-- `DevItem::sector_size`. -/
def sectorSize : UInt32 := getLe32 devItem item.memory .sectorSize

/-- `DevItem::uuid`. -/
def uuid : Bytes := getUuid devItem item.memory .uuid

/-- `DevItem::fsid`. -/
def fsid : Bytes := getUuid devItem item.memory .fsid

/-- What the accessors return. -/
def table : Table :=
  [told .devid item.devid.toNat, told .totalBytes item.totalBytes.toNat,
    told .bytesUsed item.bytesUsed.toNat, told .ioAlign item.ioAlign.toNat,
    told .ioWidth item.ioWidth.toNat, told .sectorSize item.sectorSize.toNat,
    toldBytes .uuid item.uuid, toldBytes .fsid item.fsid]

end DevItem

/-- `DevExtent`. -/
structure DevExtent where
  memory : Bytes

instance : TreeItem DevExtent := ⟨204, DevExtent.mk⟩

namespace DevExtent

variable (item : DevExtent)

/-- `DevExtent::chunk_tree`. -/
def chunkTree : UInt64 := getLe64 devExtent item.memory .chunkTree

/-- `DevExtent::chunk_objectid`. -/
def chunkObjectid : UInt64 := getLe64 devExtent item.memory .chunkObjectid

/-- `DevExtent::chunk_offset`. -/
def chunkOffset : UInt64 := getLe64 devExtent item.memory .chunkOffset

/-- `DevExtent::length`. -/
def length : UInt64 := getLe64 devExtent item.memory .length

/-- `DevExtent::chunk_tree_uuid`. -/
def chunkTreeUuid : Bytes := getUuid devExtent item.memory .chunkTreeUuid

/-- What the accessors return. -/
def table : Table :=
  [told .chunkTree item.chunkTree.toNat, told .chunkObjectid item.chunkObjectid.toNat,
    told .chunkOffset item.chunkOffset.toNat, told .length item.length.toNat,
    toldBytes .chunkTreeUuid item.chunkTreeUuid]

end DevExtent

/-- `DevStatsItem`. -/
structure DevStatsItem where
  memory : Bytes

instance : TreeItem DevStatsItem := ⟨249, DevStatsItem.mk⟩

namespace DevStatsItem

variable (item : DevStatsItem)

/-- `DevStatsItem::values`. -/
def values : List UInt64 :=
  (List.range 5).map fun index =>
    getLe64 statValues (getMember devStatsItem item.memory .values) (.element index)

/-- What the accessors return. -/
def table : Table :=
  under .values (item.values.zipIdx.map fun stat => told (.element stat.2) stat.1.toNat)

end DevStatsItem

/-- `DevReplaceItem`. -/
structure DevReplaceItem where
  memory : Bytes

instance : TreeItem DevReplaceItem := ⟨250, DevReplaceItem.mk⟩

namespace DevReplaceItem

variable (item : DevReplaceItem)

/-- `DevReplaceItem::src_devid`. -/
def srcDevid : UInt64 := getLe64 devReplaceItem item.memory .srcDevid

/-- `DevReplaceItem::cursor_left`. -/
def cursorLeft : UInt64 := getLe64 devReplaceItem item.memory .cursorLeft

/-- `DevReplaceItem::cursor_right`. -/
def cursorRight : UInt64 := getLe64 devReplaceItem item.memory .cursorRight

/-- `DevReplaceItem::cont_reading_from_srcdev_mode`. -/
def contReadingFromSrcdevMode : UInt64 := getLe64 devReplaceItem item.memory .contReadingFromSrcdevMode

/-- `DevReplaceItem::time_started`. -/
def timeStarted : UInt64 := getLe64 devReplaceItem item.memory .timeStarted

/-- `DevReplaceItem::time_stopped`. -/
def timeStopped : UInt64 := getLe64 devReplaceItem item.memory .timeStopped

/-- `DevReplaceItem::num_write_errors`. -/
def numWriteErrors : UInt64 := getLe64 devReplaceItem item.memory .numWriteErrors

/-- `DevReplaceItem::num_uncorrectable_read_errors`. -/
def numUncorrectableReadErrors : UInt64 := getLe64 devReplaceItem item.memory .numUncorrectableReadErrors

/-- What the accessors return. -/
def table : Table :=
  [told .srcDevid item.srcDevid.toNat, told .cursorLeft item.cursorLeft.toNat,
    told .cursorRight item.cursorRight.toNat,
    told .contReadingFromSrcdevMode item.contReadingFromSrcdevMode.toNat,
    told .timeStarted item.timeStarted.toNat, told .timeStopped item.timeStopped.toNat,
    told .numWriteErrors item.numWriteErrors.toNat,
    told .numUncorrectableReadErrors item.numUncorrectableReadErrors.toNat]

end DevReplaceItem

/-- `BlockGroupItem`. -/
structure BlockGroupItem where
  memory : Bytes

instance : TreeItem BlockGroupItem := ⟨192, BlockGroupItem.mk⟩

namespace BlockGroupItem

variable (item : BlockGroupItem)

/-- `BlockGroupItem::used`. -/
def used : UInt64 := getLe64 blockGroupItem item.memory .used

/-- `BlockGroupItem::chunk_objectid`. -/
def chunkObjectid : UInt64 := getLe64 blockGroupItem item.memory .chunkObjectid

/-- `BlockGroupItem::flags`. -/
def flags : UInt64 := getLe64 blockGroupItem item.memory .flags

/-- What the accessors return. -/
def table : Table :=
  [told .used item.used.toNat, told .chunkObjectid item.chunkObjectid.toNat,
    told .flags item.flags.toNat]

end BlockGroupItem

/-- `FileExtentItem`. -/
structure FileExtentItem where
  memory : Bytes

instance : TreeItem FileExtentItem := ⟨108, FileExtentItem.mk⟩

namespace FileExtentItem

variable (item : FileExtentItem)

/-- `FileExtentItem::generation`. -/
def generation : UInt64 := getLe64 fileExtentItem item.memory .generation

/-- `FileExtentItem::ram_bytes`. -/
def ramBytes : UInt64 := getLe64 fileExtentItem item.memory .ramBytes

/-- `FileExtentItem::compression`. -/
def compression : UInt8 := getByte fileExtentItem item.memory .compression

/-- `FileExtentItem::encryption`. -/
def encryption : UInt8 := getByte fileExtentItem item.memory .encryption

/-- `FileExtentItem::other_encoding`. -/
def otherEncoding : UInt16 := getLe16 fileExtentItem item.memory .otherEncoding

/-- `FileExtentItem::type_`. -/
def type_ : UInt8 := getByte fileExtentItem item.memory .type_

/-- `FileExtentItem::disk_bytenr`. -/
def diskBytenr : UInt64 := getLe64 fileExtentItem item.memory .diskBytenr

/-- `FileExtentItem::disk_num_bytes`. -/
def diskNumBytes : UInt64 := getLe64 fileExtentItem item.memory .diskNumBytes

/-- `FileExtentItem::offset`. -/
def offset : UInt64 := getLe64 fileExtentItem item.memory .offset

/-- `FileExtentItem::num_bytes`. -/
def numBytes : UInt64 := getLe64 fileExtentItem item.memory .numBytes

/-- What the accessors return. -/
def table : Table :=
  [told .generation item.generation.toNat, told .ramBytes item.ramBytes.toNat,
    told .compression item.compression.toNat, told .encryption item.encryption.toNat,
    told .otherEncoding item.otherEncoding.toNat, told .type_ item.type_.toNat,
    told .diskBytenr item.diskBytenr.toNat, told .diskNumBytes item.diskNumBytes.toNat,
    told .offset item.offset.toNat, told .numBytes item.numBytes.toNat]

end FileExtentItem

/-- `ExtentItem`. -/
structure ExtentItem where
  memory : Bytes

instance : TreeItem ExtentItem := ⟨168, ExtentItem.mk⟩

namespace ExtentItem

variable (item : ExtentItem)

/-- `ExtentItem::refs`. -/
def refs : UInt64 := getLe64 extentItem item.memory .refs

/-- `ExtentItem::generation`. -/
def generation : UInt64 := getLe64 extentItem item.memory .generation

/-- `ExtentItem::flags`. -/
def flags : UInt64 := getLe64 extentItem item.memory .flags

/-- What the accessors return. -/
def table : Table :=
  [told .refs item.refs.toNat, told .generation item.generation.toNat,
    told .flags item.flags.toNat]

end ExtentItem

/-- `ExtentDataRef`. -/
structure ExtentDataRef where
  memory : Bytes

namespace ExtentDataRef

variable (edr : ExtentDataRef)

/-- `ExtentDataRef::root`. -/
def root : UInt64 := getLe64 extentDataRef edr.memory .root

/-- `ExtentDataRef::objectid`. -/
def objectid : UInt64 := getLe64 extentDataRef edr.memory .objectid

/-- `ExtentDataRef::offset`. -/
def offset : UInt64 := getLe64 extentDataRef edr.memory .offset

/-- `ExtentDataRef::count`. -/
def count : UInt32 := getLe32 extentDataRef edr.memory .count

/-- What the accessors return. -/
def table : Table :=
  [told .root edr.root.toNat, told .objectid edr.objectid.toNat, told .offset edr.offset.toNat,
    told .count edr.count.toNat]

end ExtentDataRef

/-- `SharedDataRef`. -/
structure SharedDataRef where
  memory : Bytes

namespace SharedDataRef

variable (sdr : SharedDataRef)

/-- `SharedDataRef::count`. -/
def count : UInt32 := getLe32 sharedDataRef sdr.memory .count

/-- What the accessors return. -/
def table : Table := [told .count sdr.count.toNat]

end SharedDataRef

/-- `ExtentInlineRef`. -/
structure ExtentInlineRef where
  memory : Bytes

instance : TreeItem ExtentInlineRef := ⟨169, ExtentInlineRef.mk⟩

namespace ExtentInlineRef

variable (eir : ExtentInlineRef)

/-- `ExtentInlineRef::type_`. -/
def type_ : UInt8 := getByte extentInlineRef eir.memory .type_

/-- `ExtentInlineRef::offset`. -/
def offset : UInt64 := getLe64 extentInlineRef eir.memory .offset

/-- What the accessors return. -/
def table : Table := [told .type_ eir.type_.toNat, told .offset eir.offset.toNat]

end ExtentInlineRef

/-- `ExtentCsum`. -/
structure ExtentCsum where
  memory : Bytes

instance : TreeItem ExtentCsum := ⟨128, ExtentCsum.mk⟩

namespace ExtentCsum

variable (item : ExtentCsum)

/-- `ExtentCsum::csum`. -/
def csum : UInt8 := getByte csumItem item.memory .csum

/-- What the accessors return. -/
def table : Table := [told .csum item.csum.toNat]

end ExtentCsum

/-- `FreeSpaceInfo`. -/
structure FreeSpaceInfo where
  memory : Bytes

instance : TreeItem FreeSpaceInfo := ⟨198, FreeSpaceInfo.mk⟩

namespace FreeSpaceInfo

variable (item : FreeSpaceInfo)

/-- `FreeSpaceInfo::extent_count`. -/
def extentCount : UInt32 := getLe32 freeSpaceInfo item.memory .extentCount

/-- `FreeSpaceInfo::flags`. -/
def flags : UInt32 := getLe32 freeSpaceInfo item.memory .flags

/-- What the accessors return. -/
def table : Table := [told .extentCount item.extentCount.toNat, told .flags item.flags.toNat]

end FreeSpaceInfo

/-- `FreeSpaceExtent`, a view without any accessors. -/
structure FreeSpaceExtent where

instance : TreeItem FreeSpaceExtent := ⟨199, fun _ => ⟨⟩⟩

/-- `FreeSpaceBitmap`, a view without any accessors. -/
structure FreeSpaceBitmap where

instance : TreeItem FreeSpaceBitmap := ⟨200, fun _ => ⟨⟩⟩

/-- `FreeSpaceHeader`. -/
structure FreeSpaceHeader where
  memory : Bytes

instance : TreeItem FreeSpaceHeader := ⟨0, FreeSpaceHeader.mk⟩

namespace FreeSpaceHeader

variable (item : FreeSpaceHeader)

/-- `FreeSpaceHeader::location`. -/
def location : DiskKey := ⟨getMember freeSpaceHeader item.memory .location⟩

/-- `FreeSpaceHeader::generation`. -/
def generation : UInt64 := getLe64 freeSpaceHeader item.memory .generation

/-- `FreeSpaceHeader::num_entries`. -/
def numEntries : UInt64 := getLe64 freeSpaceHeader item.memory .numEntries

/-- `FreeSpaceHeader::num_bitmaps`. -/
def numBitmaps : UInt64 := getLe64 freeSpaceHeader item.memory .numBitmaps

/-- What the accessors return. -/
def table : Table :=
  under .location item.location.table ++
  [told .generation item.generation.toNat, told .numEntries item.numEntries.toNat,
    told .numBitmaps item.numBitmaps.toNat]

end FreeSpaceHeader

/-- `DirItem`. -/
structure DirItem where
  memory : Bytes

instance : TreeItem DirItem := ⟨84, DirItem.mk⟩

namespace DirItem

variable (item : DirItem)

/-- `ItemNameMeta::name_len`. -/
def nameLen : Nat := (getLe16 dirItem item.memory .nameLen).toNat

/-- `DirItem::location`. -/
def location : DiskKey := ⟨getMember dirItem item.memory .location⟩

/-- `DirItem::transid`. -/
def transid : UInt64 := getLe64 dirItem item.memory .transid

/-- `DirItem::data_len`. -/
def dataLen : UInt16 := getLe16 dirItem item.memory .dataLen

/-- What the accessors return. -/
def table : Table :=
  under .location item.location.table ++
  [told .transid item.transid.toNat, told .dataLen item.dataLen.toNat]

end DirItem

instance : ItemNameMeta DirItem := ⟨DirItem.nameLen, fun item => item.memory.drop dirItem.size⟩

/-- A `DIR_INDEX` item of a search, for which the same accessors are generated. -/
abbrev DirIndex := DirItem

/-- `DirIndex`, as a view with a key of its own. -/
@[reducible] def DirIndex.treeItem : TreeItem DirIndex := ⟨96, DirItem.mk⟩

/-- An `XATTR_ITEM` item of a search, for which the same accessors are generated. -/
abbrev XattrItem := DirItem

/-- `XattrItem`, as a view with a key of its own. -/
@[reducible] def XattrItem.treeItem : TreeItem XattrItem := ⟨24, DirItem.mk⟩

/-- `InodeRef`. -/
structure InodeRef where
  memory : Bytes

instance : TreeItem InodeRef := ⟨12, InodeRef.mk⟩

namespace InodeRef

variable (item : InodeRef)

/-- `ItemNameMeta::name_len`. -/
def nameLen : Nat := (getLe16 inodeRef item.memory .nameLen).toNat

/-- `InodeRef::data_len`, which reads the index. -/
def dataLen : UInt64 := getLe64 inodeRef item.memory .index

/-- What the accessors return. -/
def table : Table := [told .dataLen item.dataLen.toNat]

end InodeRef

instance : ItemNameMeta InodeRef := ⟨InodeRef.nameLen, fun item => item.memory.drop inodeRef.size⟩

/-- `InodeExtref`. -/
structure InodeExtref where
  memory : Bytes

instance : TreeItem InodeExtref := ⟨13, InodeExtref.mk⟩

namespace InodeExtref

variable (item : InodeExtref)

/-- `ItemNameMeta::name_len`. -/
def nameLen : Nat := (getLe16 inodeExtref item.memory .nameLen).toNat

/-- `InodeExtref::parent_objectid`. -/
def parentObjectid : UInt64 := getLe64 inodeExtref item.memory .parentObjectid

/-- `InodeExtref::index`. -/
def index : UInt64 := getLe64 inodeExtref item.memory .index

/-- `InodeExtref::data_len`, which reads the index. -/
def dataLen : UInt64 := getLe64 inodeExtref item.memory .index

/-- What the accessors return. -/
def table : Table :=
  [told .parentObjectid item.parentObjectid.toNat, told .index item.index.toNat,
    told .dataLen item.dataLen.toNat]

end InodeExtref

instance : ItemNameMeta InodeExtref :=
  ⟨InodeExtref.nameLen, fun item => item.memory.drop inodeExtref.size⟩

/-- `QgroupStatus`. -/
structure QgroupStatus where
  memory : Bytes

instance : TreeItem QgroupStatus := ⟨240, QgroupStatus.mk⟩

namespace QgroupStatus

variable (item : QgroupStatus)

/-- `QgroupStatus::version`. -/
def version : UInt64 := getLe64 qgroupStatusItem item.memory .version

/-- `QgroupStatus::generation`. -/
def generation : UInt64 := getLe64 qgroupStatusItem item.memory .generation

/-- `QgroupStatus::flags`. -/
def flags : UInt64 := getLe64 qgroupStatusItem item.memory .flags

/-- `QgroupStatus::rescan`. -/
def rescan : UInt64 := getLe64 qgroupStatusItem item.memory .rescan

/-- What the accessors return. -/
def table : Table :=
  [told .version item.version.toNat, told .generation item.generation.toNat,
    told .flags item.flags.toNat, told .rescan item.rescan.toNat]

end QgroupStatus

/-- `QgroupInfo`. -/
structure QgroupInfo where
  memory : Bytes

instance : TreeItem QgroupInfo := ⟨242, QgroupInfo.mk⟩

namespace QgroupInfo

variable (item : QgroupInfo)

/-- `QgroupInfo::generation`. -/
def generation : UInt64 := getLe64 qgroupInfoItem item.memory .generation

/-- `QgroupInfo::rfer`. -/
def rfer : UInt64 := getLe64 qgroupInfoItem item.memory .rfer

/-- `QgroupInfo::rfer_cmpr`. -/
def rferCmpr : UInt64 := getLe64 qgroupInfoItem item.memory .rferCmpr

/-- `QgroupInfo::excl`. -/
def excl : UInt64 := getLe64 qgroupInfoItem item.memory .excl

/-- `QgroupInfo::excl_cmpr`. -/
def exclCmpr : UInt64 := getLe64 qgroupInfoItem item.memory .exclCmpr

/-- What the accessors return. -/
def table : Table :=
  [told .generation item.generation.toNat, told .rfer item.rfer.toNat,
    told .rferCmpr item.rferCmpr.toNat, told .excl item.excl.toNat,
    told .exclCmpr item.exclCmpr.toNat]

end QgroupInfo

/-- `QgroupLimit`. -/
structure QgroupLimit where
  memory : Bytes

instance : TreeItem QgroupLimit := ⟨244, QgroupLimit.mk⟩

namespace QgroupLimit

variable (item : QgroupLimit)

/-- `QgroupLimit::flags`. -/
def flags : UInt64 := getLe64 qgroupLimitItem item.memory .flags

/-- `QgroupLimit::max_rfer`. -/
def maxRfer : UInt64 := getLe64 qgroupLimitItem item.memory .maxRfer

/-- `QgroupLimit::max_excl`. -/
def maxExcl : UInt64 := getLe64 qgroupLimitItem item.memory .maxExcl

/-- `QgroupLimit::rsv_rfer`. -/
def rsvRfer : UInt64 := getLe64 qgroupLimitItem item.memory .rsvRfer

/-- `QgroupLimit::rsv_excl`. -/
def rsvExcl : UInt64 := getLe64 qgroupLimitItem item.memory .rsvExcl

/-- What the accessors return. -/
def table : Table :=
  [told .flags item.flags.toNat, told .maxRfer item.maxRfer.toNat,
    told .maxExcl item.maxExcl.toNat, told .rsvRfer item.rsvRfer.toNat,
    told .rsvExcl item.rsvExcl.toNat]

end QgroupLimit

/-- `QgroupRelation`, a view without any accessors. -/
structure QgroupRelation where

instance : TreeItem QgroupRelation := ⟨246, fun _ => ⟨⟩⟩

/-- `OrphanItem`, a view without any accessors. -/
structure OrphanItem where

instance : TreeItem OrphanItem := ⟨48, fun _ => ⟨⟩⟩

/-- `DirLogItem`. -/
structure DirLogItem where
  memory : Bytes

instance : TreeItem DirLogItem := ⟨60, DirLogItem.mk⟩

namespace DirLogItem

variable (item : DirLogItem)

/-- `DirLogItem::end`. -/
def end_ : UInt64 := getLe64 dirLogItem item.memory .end_

/-- What the accessors return. -/
def table : Table := [told .end_ item.end_.toNat]

end DirLogItem

/-- A `DIR_LOG_INDEX` item of a search, for which the same accessor is generated. -/
abbrev DirLogIndex := DirLogItem

/-- `DirLogIndex`, as a view with a key of its own. -/
@[reducible] def DirLogIndex.treeItem : TreeItem DirLogIndex := ⟨72, DirLogItem.mk⟩

/-- What the accessors of the two unions return. -/
structure BalanceUnions where
  limit : Outcome UInt64
  limitRange : Outcome (UInt32 × UInt32)
  usage : Outcome UInt64
  usageRange : Outcome (UInt32 × UInt32)
  deriving DecidableEq

/-- `BTRFS_BALANCE_ARGS_USAGE`. -/
def balanceArgsUsage : UInt64 := 2

/-- `BTRFS_BALANCE_ARGS_LIMIT`. -/
def balanceArgsLimit : UInt64 := 32

/-- `BTRFS_BALANCE_ARGS_LIMIT_RANGE`. -/
def balanceArgsLimitRange : UInt64 := 64

/-- `BTRFS_BALANCE_ARGS_USAGE_RANGE`. -/
def balanceArgsUsageRange : UInt64 := 1024

/-- `DiskBalanceArgs`. -/
structure DiskBalanceArgs where
  memory : Bytes

namespace DiskBalanceArgs

variable (args : DiskBalanceArgs)

/-- `DiskBalanceArgs::profiles`. -/
def profiles : UInt64 := getLe64 diskBalanceArgs args.memory .profiles

/-- `DiskBalanceArgs::devid`. -/
def devid : UInt64 := getLe64 diskBalanceArgs args.memory .devid

/-- `DiskBalanceArgs::pstart`. -/
def pstart : UInt64 := getLe64 diskBalanceArgs args.memory .pstart

/-- `DiskBalanceArgs::vstart`. -/
def vstart : UInt64 := getLe64 diskBalanceArgs args.memory .vstart

/-- `DiskBalanceArgs::vend`. -/
def vend : UInt64 := getLe64 diskBalanceArgs args.memory .vend

/-- `DiskBalanceArgs::target`. -/
def target : UInt64 := getLe64 diskBalanceArgs args.memory .target

/-- `DiskBalanceArgs::flags`. -/
def flags : UInt64 := getLe64 diskBalanceArgs args.memory .flags

/-- `DiskBalanceArgs::stripes_min`. -/
def stripesMin : UInt32 := getLe32 diskBalanceArgs args.memory .stripesMin

/-- `DiskBalanceArgs::stripes_max`. -/
def stripesMax : UInt32 := getLe32 diskBalanceArgs args.memory .stripesMax

/-- What the accessors return. -/
def table : Table :=
  [told .profiles args.profiles.toNat, told .devid args.devid.toNat,
    told .pstart args.pstart.toNat, told .vstart args.vstart.toNat, told .vend args.vend.toNat,
    told .target args.target.toNat, told .flags args.flags.toNat,
    told .stripesMin args.stripesMin.toNat, told .stripesMax args.stripesMax.toNat]

/-- `debug_assert!(self.flags() & flag != 0)`, in front of what is read from a union. -/
def asserted {α : Type} (debugAssertions : Bool) (flag : UInt64) (name : String) (value : α) :
    Outcome α :=
  if debugAssertions ∧ args.flags &&& flag = 0 then
    .error (.panic ("assertion failed: self.flags() & " ++ name ++ " != 0"))
  else .ok value

variable (debugAssertions : Bool)

/-- `DiskBalanceArgs::limit`. -/
def limit : Outcome UInt64 :=
  args.asserted debugAssertions balanceArgsLimit "BTRFS_BALANCE_ARGS_LIMIT"
    (getLe64 limitUnion (getMember diskBalanceArgs args.memory .inner2) .limit)

/-- `DiskBalanceArgs::limit_range`. -/
def limitRange : Outcome (UInt32 × UInt32) :=
  let range := getMember diskBalanceArgs args.memory .inner2
  args.asserted debugAssertions balanceArgsLimitRange "BTRFS_BALANCE_ARGS_LIMIT_RANGE"
    (getLe32 limitRangeUnion range .limitMin, getLe32 limitRangeUnion range .limitMax)

/-- `DiskBalanceArgs::usage`. -/
def usage : Outcome UInt64 :=
  args.asserted debugAssertions balanceArgsUsage "BTRFS_BALANCE_ARGS_USAGE"
    (getLe64 usageUnion (getMember diskBalanceArgs args.memory .inner1) .usage)

/-- `DiskBalanceArgs::usage_range`. -/
def usageRange : Outcome (UInt32 × UInt32) :=
  let range := getMember diskBalanceArgs args.memory .inner1
  args.asserted debugAssertions balanceArgsUsageRange "BTRFS_BALANCE_ARGS_USAGE_RANGE"
    (getLe32 usageRangeUnion range .usageMin, getLe32 usageRangeUnion range .usageMax)

/-- What the accessors of the unions return. -/
def unions : BalanceUnions where
  limit := args.limit debugAssertions
  limitRange := args.limitRange debugAssertions
  usage := args.usage debugAssertions
  usageRange := args.usageRange debugAssertions

end DiskBalanceArgs

/-- `TemporaryItem`. -/
structure TemporaryItem where
  memory : Bytes

instance : TreeItem TemporaryItem := ⟨248, TemporaryItem.mk⟩

namespace TemporaryItem

variable (item : TemporaryItem)

/-- `TemporaryItem::flags`. -/
def flags : UInt64 := getLe64 balanceItem item.memory .flags

/-- `TemporaryItem::data`. -/
def data : DiskBalanceArgs := ⟨getMember balanceItem item.memory .data⟩

/-- `TemporaryItem::meta`. -/
def metadata : DiskBalanceArgs := ⟨getMember balanceItem item.memory .metadata⟩

/-- `TemporaryItem::sys`. -/
def sys : DiskBalanceArgs := ⟨getMember balanceItem item.memory .sys⟩

/-- What the accessors return. -/
def table : Table :=
  [told .flags item.flags.toNat] ++
  under .data item.data.table ++
  under .metadata item.metadata.table ++
  under .sys item.sys.table

/-- What the accessors of the unions return. -/
def unions (debugAssertions : Bool) : List BalanceUnions :=
  [item.data.unions debugAssertions, item.metadata.unions debugAssertions,
    item.sys.unions debugAssertions]

end TemporaryItem

/-- `UuidSubvol`, a view without any accessors. -/
structure UuidSubvol where

instance : TreeItem UuidSubvol := ⟨251, fun _ => ⟨⟩⟩

/-- `UuidReceivedSubvol`, a view without any accessors. -/
structure UuidReceivedSubvol where

instance : TreeItem UuidReceivedSubvol := ⟨252, fun _ => ⟨⟩⟩

/-- `RootBackref`, as a view with a key of its own. -/
@[reducible] def RootBackref.treeItem : TreeItem RootBackref := ⟨RootBackref.key, RootRef.mk⟩

end Libbtrfs.Search
