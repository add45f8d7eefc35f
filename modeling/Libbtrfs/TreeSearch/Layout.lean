import Libbtrfs.Core.Packed

/-! The packed structures of the bindings that the items of a tree are made of. -/

namespace Libbtrfs.Search

open Packed

/-- The names of the fields in the packed structures, and the elements of an array. -/
inductive FieldName
  | objectid | type_ | offset | sec | nsec
  | generation | transid | size | nbytes | blockGroup | nlink | uid | gid | mode | rdev | flags
  | sequence | reserved | atime | ctime | mtime | otime
  | inode | rootDirid | bytenr | byteLimit | bytesUsed | lastSnapshot | refs | dropProgress
  | dropLevel | level | generationV2 | uuid | parentUuid | receivedUuid | ctransid | otransid
  | stransid | rtransid | stime | rtime
  | dirid | nameLen
  | length | owner | stripeLen | ioAlign | ioWidth | sectorSize | numStripes | subStripes | stripe
  | devid | devUuid
  | totalBytes | startOffset | devGroup | seekSpeed | bandwidth | fsid
  | chunkTree | chunkObjectid | chunkOffset | chunkTreeUuid
  | values | element (index : Nat)
  | srcDevid | cursorLeft | cursorRight | contReadingFromSrcdevMode | replaceState | timeStarted
  | timeStopped | numWriteErrors | numUncorrectableReadErrors
  | used
  | ramBytes | compression | encryption | otherEncoding | diskBytenr | diskNumBytes | numBytes
  | root | count | csum | extentCount
  | location | numEntries | numBitmaps
  | dataLen | index | parentObjectid
  | version | rescan | enableGen
  | rfer | rferCmpr | excl | exclCmpr | maxRfer | maxExcl | rsvRfer | rsvExcl
  | end_
  | data | metadata | sys | unused
  | profiles | inner1 | pstart | pend | vstart | vend | target | inner2 | stripesMin | stripesMax
  | usage | usageMin | usageMax | limit | limitMin | limitMax
  deriving DecidableEq

/-- Where a field lies in nested structures. -/
abbrev Path := List FieldName

/-- A field of type `__u8`. -/
def byteField (name : FieldName) : Path × Scalar := ([name], .u8)

/-- A field of type `__le16`. -/
def le16Field (name : FieldName) : Path × Scalar := ([name], .le16)

/-- A field of type `__le32`. -/
def le32Field (name : FieldName) : Path × Scalar := ([name], .le32)

/-- A field of type `__le64`. -/
def le64Field (name : FieldName) : Path × Scalar := ([name], .le64)

/-- A field that is an array of bytes, or is only read as one. -/
def arrayField (name : FieldName) (count : Nat) : Path × Scalar := ([name], .array count)

/-- `btrfs_disk_key`. -/
def diskKey : Struct Path :=
  [le64Field .objectid, byteField .type_, le64Field .offset]

/-- `btrfs_timespec`. -/
def timespec : Struct Path :=
  [le64Field .sec, le32Field .nsec]

/-- `btrfs_inode_item`. -/
def inodeItem : Struct Path :=
  [le64Field .generation, le64Field .transid, le64Field .size, le64Field .nbytes,
    le64Field .blockGroup, le32Field .nlink, le32Field .uid, le32Field .gid, le32Field .mode,
    le64Field .rdev, le64Field .flags, le64Field .sequence, arrayField .reserved 32] ++
  under .atime timespec ++ under .ctime timespec ++ under .mtime timespec ++ under .otime timespec

/-- `btrfs_root_item`. -/
def rootItem : Struct Path :=
  under .inode inodeItem ++
  [le64Field .generation, le64Field .rootDirid, le64Field .bytenr, le64Field .byteLimit,
    le64Field .bytesUsed, le64Field .lastSnapshot, le64Field .flags, le32Field .refs] ++
  under .dropProgress diskKey ++
  [byteField .dropLevel, byteField .level, le64Field .generationV2, arrayField .uuid 16,
    arrayField .parentUuid 16, arrayField .receivedUuid 16, le64Field .ctransid,
    le64Field .otransid, le64Field .stransid, le64Field .rtransid] ++
  under .ctime timespec ++ under .otime timespec ++ under .stime timespec ++
  under .rtime timespec ++ [arrayField .reserved 64]

/-- `btrfs_root_ref`. -/
def rootRef : Struct Path :=
  [le64Field .dirid, le64Field .sequence, le16Field .nameLen]

/-- `btrfs_stripe`. -/
def stripe : Struct Path :=
  [le64Field .devid, le64Field .offset, arrayField .devUuid 16]

/-- `btrfs_chunk`. -/
def chunk : Struct Path :=
  [le64Field .length, le64Field .owner, le64Field .stripeLen, le64Field .type_,
    le32Field .ioAlign, le32Field .ioWidth, le32Field .sectorSize, le16Field .numStripes,
    le16Field .subStripes] ++ under .stripe stripe

/-- `btrfs_dev_item`. -/
def devItem : Struct Path :=
  [le64Field .devid, le64Field .totalBytes, le64Field .bytesUsed, le32Field .ioAlign,
    le32Field .ioWidth, le32Field .sectorSize, le64Field .type_, le64Field .generation,
    le64Field .startOffset, le32Field .devGroup, byteField .seekSpeed, byteField .bandwidth,
    arrayField .uuid 16, arrayField .fsid 16]

/-- `btrfs_dev_extent`. -/
def devExtent : Struct Path :=
  [le64Field .chunkTree, le64Field .chunkObjectid, le64Field .chunkOffset, le64Field .length,
    arrayField .chunkTreeUuid 16]

/-- The array in `btrfs_dev_stats_item`. -/
def statValues : Struct Path := (List.range 5).map fun index => le64Field (.element index)

/-- `btrfs_dev_stats_item`. -/
def devStatsItem : Struct Path := under .values statValues

/-- `btrfs_dev_replace_item`. -/
def devReplaceItem : Struct Path :=
  [le64Field .srcDevid, le64Field .cursorLeft, le64Field .cursorRight,
    le64Field .contReadingFromSrcdevMode, le64Field .replaceState, le64Field .timeStarted,
    le64Field .timeStopped, le64Field .numWriteErrors, le64Field .numUncorrectableReadErrors]

/-- `btrfs_block_group_item`. -/
def blockGroupItem : Struct Path :=
  [le64Field .used, le64Field .chunkObjectid, le64Field .flags]

/-- `btrfs_file_extent_item`. -/
def fileExtentItem : Struct Path :=
  [le64Field .generation, le64Field .ramBytes, byteField .compression, byteField .encryption,
    le16Field .otherEncoding, byteField .type_, le64Field .diskBytenr, le64Field .diskNumBytes,
    le64Field .offset, le64Field .numBytes]

/-- `btrfs_extent_item`. -/
def extentItem : Struct Path :=
  [le64Field .refs, le64Field .generation, le64Field .flags]

/-- `btrfs_extent_data_ref`. -/
def extentDataRef : Struct Path :=
  [le64Field .root, le64Field .objectid, le64Field .offset, le32Field .count]

/-- `btrfs_shared_data_ref`. -/
def sharedDataRef : Struct Path := [le32Field .count]

/-- `btrfs_extent_inline_ref`. -/
def extentInlineRef : Struct Path := [byteField .type_, le64Field .offset]

/-- `btrfs_csum_item`. -/
def csumItem : Struct Path := [byteField .csum]

/-- `btrfs_free_space_info`. -/
def freeSpaceInfo : Struct Path := [le32Field .extentCount, le32Field .flags]

/-- `btrfs_free_space_header`. -/
def freeSpaceHeader : Struct Path :=
  under .location diskKey ++
  [le64Field .generation, le64Field .numEntries, le64Field .numBitmaps]

/-- `btrfs_dir_item`. -/
def dirItem : Struct Path :=
  under .location diskKey ++
  [le64Field .transid, le16Field .dataLen, le16Field .nameLen, byteField .type_]

/-- `btrfs_inode_ref`. -/
def inodeRef : Struct Path := [le64Field .index, le16Field .nameLen]

/-- `btrfs_inode_extref`, whose name is an array without a length. -/
def inodeExtref : Struct Path :=
  [le64Field .parentObjectid, le64Field .index, le16Field .nameLen]

/-- `btrfs_qgroup_status_item`. -/
def qgroupStatusItem : Struct Path :=
  [le64Field .version, le64Field .generation, le64Field .flags, le64Field .rescan,
    le64Field .enableGen]

/-- `btrfs_qgroup_info_item`. -/
def qgroupInfoItem : Struct Path :=
  [le64Field .generation, le64Field .rfer, le64Field .rferCmpr, le64Field .excl,
    le64Field .exclCmpr]

/-- `btrfs_qgroup_limit_item`. -/
def qgroupLimitItem : Struct Path :=
  [le64Field .flags, le64Field .maxRfer, le64Field .maxExcl, le64Field .rsvRfer,
    le64Field .rsvExcl]

/-- `btrfs_dir_log_item`. -/
def dirLogItem : Struct Path := [le64Field .end_]

/-- The integer in the first union of `btrfs_disk_balance_args`. -/
def usageUnion : Struct Path := [le64Field .usage]

/-- The range in the first union of `btrfs_disk_balance_args`. -/
def usageRangeUnion : Struct Path := [le32Field .usageMin, le32Field .usageMax]

/-- The integer in the second union of `btrfs_disk_balance_args`. -/
def limitUnion : Struct Path := [le64Field .limit]

/-- The range in the second union of `btrfs_disk_balance_args`. -/
def limitRangeUnion : Struct Path := [le32Field .limitMin, le32Field .limitMax]

/-- `btrfs_disk_balance_args`, whose two unions are arrays of bytes here. -/
def diskBalanceArgs : Struct Path :=
  [le64Field .profiles, arrayField .inner1 8, le64Field .devid, le64Field .pstart,
    le64Field .pend, le64Field .vstart, le64Field .vend, le64Field .target, le64Field .flags,
    arrayField .inner2 8, le32Field .stripesMin, le32Field .stripesMax, arrayField .unused 48]

/-- `btrfs_balance_item`. -/
def balanceItem : Struct Path :=
  [le64Field .flags] ++ under .data diskBalanceArgs ++ under .metadata diskBalanceArgs ++
  under .sys diskBalanceArgs ++ [arrayField .unused 32]

end Libbtrfs.Search
