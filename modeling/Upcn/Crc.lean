import Upcn.Lib.Crc

/-!
# The CRCs of a bundle and of a packet

`crc.c`: the three CRCs with their tables, at once and over a stream.  The register of a
stream has 32 bits for every CRC.

* `CrcRight` says that a CRC is the bit-by-bit one, however its input is split, and
  `crcRight` that all three are.
-/

namespace Upcn.Crc

/-- `crc16_x25_table`. -/
def crc16X25Table : List UInt32 :=
  [ 0x0000, 0x1189, 0x2312, 0x329b, 0x4624, 0x57ad, 0x6536, 0x74bf, 0x8c48, 0x9dc1,
    0xaf5a, 0xbed3, 0xca6c, 0xdbe5, 0xe97e, 0xf8f7, 0x1081, 0x0108, 0x3393, 0x221a,
    0x56a5, 0x472c, 0x75b7, 0x643e, 0x9cc9, 0x8d40, 0xbfdb, 0xae52, 0xdaed, 0xcb64,
    0xf9ff, 0xe876, 0x2102, 0x308b, 0x0210, 0x1399, 0x6726, 0x76af, 0x4434, 0x55bd,
    0xad4a, 0xbcc3, 0x8e58, 0x9fd1, 0xeb6e, 0xfae7, 0xc87c, 0xd9f5, 0x3183, 0x200a,
    0x1291, 0x0318, 0x77a7, 0x662e, 0x54b5, 0x453c, 0xbdcb, 0xac42, 0x9ed9, 0x8f50,
    0xfbef, 0xea66, 0xd8fd, 0xc974, 0x4204, 0x538d, 0x6116, 0x709f, 0x0420, 0x15a9,
    0x2732, 0x36bb, 0xce4c, 0xdfc5, 0xed5e, 0xfcd7, 0x8868, 0x99e1, 0xab7a, 0xbaf3,
    0x5285, 0x430c, 0x7197, 0x601e, 0x14a1, 0x0528, 0x37b3, 0x263a, 0xdecd, 0xcf44,
    0xfddf, 0xec56, 0x98e9, 0x8960, 0xbbfb, 0xaa72, 0x6306, 0x728f, 0x4014, 0x519d,
    0x2522, 0x34ab, 0x0630, 0x17b9, 0xef4e, 0xfec7, 0xcc5c, 0xddd5, 0xa96a, 0xb8e3,
    0x8a78, 0x9bf1, 0x7387, 0x620e, 0x5095, 0x411c, 0x35a3, 0x242a, 0x16b1, 0x0738,
    0xffcf, 0xee46, 0xdcdd, 0xcd54, 0xb9eb, 0xa862, 0x9af9, 0x8b70, 0x8408, 0x9581,
    0xa71a, 0xb693, 0xc22c, 0xd3a5, 0xe13e, 0xf0b7, 0x0840, 0x19c9, 0x2b52, 0x3adb,
    0x4e64, 0x5fed, 0x6d76, 0x7cff, 0x9489, 0x8500, 0xb79b, 0xa612, 0xd2ad, 0xc324,
    0xf1bf, 0xe036, 0x18c1, 0x0948, 0x3bd3, 0x2a5a, 0x5ee5, 0x4f6c, 0x7df7, 0x6c7e,
    0xa50a, 0xb483, 0x8618, 0x9791, 0xe32e, 0xf2a7, 0xc03c, 0xd1b5, 0x2942, 0x38cb,
    0x0a50, 0x1bd9, 0x6f66, 0x7eef, 0x4c74, 0x5dfd, 0xb58b, 0xa402, 0x9699, 0x8710,
    0xf3af, 0xe226, 0xd0bd, 0xc134, 0x39c3, 0x284a, 0x1ad1, 0x0b58, 0x7fe7, 0x6e6e,
    0x5cf5, 0x4d7c, 0xc60c, 0xd785, 0xe51e, 0xf497, 0x8028, 0x91a1, 0xa33a, 0xb2b3,
    0x4a44, 0x5bcd, 0x6956, 0x78df, 0x0c60, 0x1de9, 0x2f72, 0x3efb, 0xd68d, 0xc704,
    0xf59f, 0xe416, 0x90a9, 0x8120, 0xb3bb, 0xa232, 0x5ac5, 0x4b4c, 0x79d7, 0x685e,
    0x1ce1, 0x0d68, 0x3ff3, 0x2e7a, 0xe70e, 0xf687, 0xc41c, 0xd595, 0xa12a, 0xb0a3,
    0x8238, 0x93b1, 0x6b46, 0x7acf, 0x4854, 0x59dd, 0x2d62, 0x3ceb, 0x0e70, 0x1ff9,
    0xf78f, 0xe606, 0xd49d, 0xc514, 0xb1ab, 0xa022, 0x92b9, 0x8330, 0x7bc7, 0x6a4e,
    0x58d5, 0x495c, 0x3de3, 0x2c6a, 0x1ef1, 0x0f78 ]

/-- `crc16_ccitt_false_table`. -/
def crc16CcittFalseTable : List UInt16 :=
  [ 0x0000, 0x1021, 0x2042, 0x3063, 0x4084, 0x50a5, 0x60c6, 0x70e7, 0x8108, 0x9129,
    0xa14a, 0xb16b, 0xc18c, 0xd1ad, 0xe1ce, 0xf1ef, 0x1231, 0x0210, 0x3273, 0x2252,
    0x52b5, 0x4294, 0x72f7, 0x62d6, 0x9339, 0x8318, 0xb37b, 0xa35a, 0xd3bd, 0xc39c,
    0xf3ff, 0xe3de, 0x2462, 0x3443, 0x0420, 0x1401, 0x64e6, 0x74c7, 0x44a4, 0x5485,
    0xa56a, 0xb54b, 0x8528, 0x9509, 0xe5ee, 0xf5cf, 0xc5ac, 0xd58d, 0x3653, 0x2672,
    0x1611, 0x0630, 0x76d7, 0x66f6, 0x5695, 0x46b4, 0xb75b, 0xa77a, 0x9719, 0x8738,
    0xf7df, 0xe7fe, 0xd79d, 0xc7bc, 0x48c4, 0x58e5, 0x6886, 0x78a7, 0x0840, 0x1861,
    0x2802, 0x3823, 0xc9cc, 0xd9ed, 0xe98e, 0xf9af, 0x8948, 0x9969, 0xa90a, 0xb92b,
    0x5af5, 0x4ad4, 0x7ab7, 0x6a96, 0x1a71, 0x0a50, 0x3a33, 0x2a12, 0xdbfd, 0xcbdc,
    0xfbbf, 0xeb9e, 0x9b79, 0x8b58, 0xbb3b, 0xab1a, 0x6ca6, 0x7c87, 0x4ce4, 0x5cc5,
    0x2c22, 0x3c03, 0x0c60, 0x1c41, 0xedae, 0xfd8f, 0xcdec, 0xddcd, 0xad2a, 0xbd0b,
    0x8d68, 0x9d49, 0x7e97, 0x6eb6, 0x5ed5, 0x4ef4, 0x3e13, 0x2e32, 0x1e51, 0x0e70,
    0xff9f, 0xefbe, 0xdfdd, 0xcffc, 0xbf1b, 0xaf3a, 0x9f59, 0x8f78, 0x9188, 0x81a9,
    0xb1ca, 0xa1eb, 0xd10c, 0xc12d, 0xf14e, 0xe16f, 0x1080, 0x00a1, 0x30c2, 0x20e3,
    0x5004, 0x4025, 0x7046, 0x6067, 0x83b9, 0x9398, 0xa3fb, 0xb3da, 0xc33d, 0xd31c,
    0xe37f, 0xf35e, 0x02b1, 0x1290, 0x22f3, 0x32d2, 0x4235, 0x5214, 0x6277, 0x7256,
    0xb5ea, 0xa5cb, 0x95a8, 0x8589, 0xf56e, 0xe54f, 0xd52c, 0xc50d, 0x34e2, 0x24c3,
    0x14a0, 0x0481, 0x7466, 0x6447, 0x5424, 0x4405, 0xa7db, 0xb7fa, 0x8799, 0x97b8,
    0xe75f, 0xf77e, 0xc71d, 0xd73c, 0x26d3, 0x36f2, 0x0691, 0x16b0, 0x6657, 0x7676,
    0x4615, 0x5634, 0xd94c, 0xc96d, 0xf90e, 0xe92f, 0x99c8, 0x89e9, 0xb98a, 0xa9ab,
    0x5844, 0x4865, 0x7806, 0x6827, 0x18c0, 0x08e1, 0x3882, 0x28a3, 0xcb7d, 0xdb5c,
    0xeb3f, 0xfb1e, 0x8bf9, 0x9bd8, 0xabbb, 0xbb9a, 0x4a75, 0x5a54, 0x6a37, 0x7a16,
    0x0af1, 0x1ad0, 0x2ab3, 0x3a92, 0xfd2e, 0xed0f, 0xdd6c, 0xcd4d, 0xbdaa, 0xad8b,
    0x9de8, 0x8dc9, 0x7c26, 0x6c07, 0x5c64, 0x4c45, 0x3ca2, 0x2c83, 0x1ce0, 0x0cc1,
    0xef1f, 0xff3e, 0xcf5d, 0xdf7c, 0xaf9b, 0xbfba, 0x8fd9, 0x9ff8, 0x6e17, 0x7e36,
    0x4e55, 0x5e74, 0x2e93, 0x3eb2, 0x0ed1, 0x1ef0 ]

/-- `crc32_table`. -/
def crc32Table : List UInt32 :=
  [ 0x00000000, 0xf26b8303, 0xe13b70f7, 0x1350f3f4, 0xc79a971f, 0x35f1141c, 0x26a1e7e8, 0xd4ca64eb,
    0x8ad958cf, 0x78b2dbcc, 0x6be22838, 0x9989ab3b, 0x4d43cfd0, 0xbf284cd3, 0xac78bf27, 0x5e133c24,
    0x105ec76f, 0xe235446c, 0xf165b798, 0x030e349b, 0xd7c45070, 0x25afd373, 0x36ff2087, 0xc494a384,
    0x9a879fa0, 0x68ec1ca3, 0x7bbcef57, 0x89d76c54, 0x5d1d08bf, 0xaf768bbc, 0xbc267848, 0x4e4dfb4b,
    0x20bd8ede, 0xd2d60ddd, 0xc186fe29, 0x33ed7d2a, 0xe72719c1, 0x154c9ac2, 0x061c6936, 0xf477ea35,
    0xaa64d611, 0x580f5512, 0x4b5fa6e6, 0xb93425e5, 0x6dfe410e, 0x9f95c20d, 0x8cc531f9, 0x7eaeb2fa,
    0x30e349b1, 0xc288cab2, 0xd1d83946, 0x23b3ba45, 0xf779deae, 0x05125dad, 0x1642ae59, 0xe4292d5a,
    0xba3a117e, 0x4851927d, 0x5b016189, 0xa96ae28a, 0x7da08661, 0x8fcb0562, 0x9c9bf696, 0x6ef07595,
    0x417b1dbc, 0xb3109ebf, 0xa0406d4b, 0x522bee48, 0x86e18aa3, 0x748a09a0, 0x67dafa54, 0x95b17957,
    0xcba24573, 0x39c9c670, 0x2a993584, 0xd8f2b687, 0x0c38d26c, 0xfe53516f, 0xed03a29b, 0x1f682198,
    0x5125dad3, 0xa34e59d0, 0xb01eaa24, 0x42752927, 0x96bf4dcc, 0x64d4cecf, 0x77843d3b, 0x85efbe38,
    0xdbfc821c, 0x2997011f, 0x3ac7f2eb, 0xc8ac71e8, 0x1c661503, 0xee0d9600, 0xfd5d65f4, 0x0f36e6f7,
    0x61c69362, 0x93ad1061, 0x80fde395, 0x72966096, 0xa65c047d, 0x5437877e, 0x4767748a, 0xb50cf789,
    0xeb1fcbad, 0x197448ae, 0x0a24bb5a, 0xf84f3859, 0x2c855cb2, 0xdeeedfb1, 0xcdbe2c45, 0x3fd5af46,
    0x7198540d, 0x83f3d70e, 0x90a324fa, 0x62c8a7f9, 0xb602c312, 0x44694011, 0x5739b3e5, 0xa55230e6,
    0xfb410cc2, 0x092a8fc1, 0x1a7a7c35, 0xe811ff36, 0x3cdb9bdd, 0xceb018de, 0xdde0eb2a, 0x2f8b6829,
    0x82f63b78, 0x709db87b, 0x63cd4b8f, 0x91a6c88c, 0x456cac67, 0xb7072f64, 0xa457dc90, 0x563c5f93,
    0x082f63b7, 0xfa44e0b4, 0xe9141340, 0x1b7f9043, 0xcfb5f4a8, 0x3dde77ab, 0x2e8e845f, 0xdce5075c,
    0x92a8fc17, 0x60c37f14, 0x73938ce0, 0x81f80fe3, 0x55326b08, 0xa759e80b, 0xb4091bff, 0x466298fc,
    0x1871a4d8, 0xea1a27db, 0xf94ad42f, 0x0b21572c, 0xdfeb33c7, 0x2d80b0c4, 0x3ed04330, 0xccbbc033,
    0xa24bb5a6, 0x502036a5, 0x4370c551, 0xb11b4652, 0x65d122b9, 0x97baa1ba, 0x84ea524e, 0x7681d14d,
    0x2892ed69, 0xdaf96e6a, 0xc9a99d9e, 0x3bc21e9d, 0xef087a76, 0x1d63f975, 0x0e330a81, 0xfc588982,
    0xb21572c9, 0x407ef1ca, 0x532e023e, 0xa145813d, 0x758fe5d6, 0x87e466d5, 0x94b49521, 0x66df1622,
    0x38cc2a06, 0xcaa7a905, 0xd9f75af1, 0x2b9cd9f2, 0xff56bd19, 0x0d3d3e1a, 0x1e6dcdee, 0xec064eed,
    0xc38d26c4, 0x31e6a5c7, 0x22b65633, 0xd0ddd530, 0x0417b1db, 0xf67c32d8, 0xe52cc12c, 0x1747422f,
    0x49547e0b, 0xbb3ffd08, 0xa86f0efc, 0x5a048dff, 0x8ecee914, 0x7ca56a17, 0x6ff599e3, 0x9d9e1ae0,
    0xd3d3e1ab, 0x21b862a8, 0x32e8915c, 0xc083125f, 0x144976b4, 0xe622f5b7, 0xf5720643, 0x07198540,
    0x590ab964, 0xab613a67, 0xb831c993, 0x4a5a4a90, 0x9e902e7b, 0x6cfbad78, 0x7fab5e8c, 0x8dc0dd8f,
    0xe330a81a, 0x115b2b19, 0x020bd8ed, 0xf0605bee, 0x24aa3f05, 0xd6c1bc06, 0xc5914ff2, 0x37faccf1,
    0x69e9f0d5, 0x9b8273d6, 0x88d28022, 0x7ab90321, 0xae7367ca, 0x5c18e4c9, 0x4f48173d, 0xbd23943e,
    0xf36e6f75, 0x0105ec76, 0x12551f82, 0xe03e9c81, 0x34f4f86a, 0xc69f7b69, 0xd5cf889d, 0x27a40b9e,
    0x79b737ba, 0x8bdcb4b9, 0x988c474d, 0x6ae7c44e, 0xbe2da0a5, 0x4c4623a6, 0x5f16d052, 0xad7d5351 ]

/-! ## At once -/

/-- The step of the loop of `crc16_x25`. -/
def crc16X25Step (crc : UInt16) (byte : UInt8) : UInt16 :=
  (crc >>> 8) ^^^ (crc16X25Table.getD ((crc &&& 0xff).toUInt8 ^^^ byte).toNat 0).toUInt16

/-- `crc16_x25`. -/
def crc16X25 (data : List UInt8) : UInt16 :=
  let crc := data.foldl crc16X25Step 0xffff
  crc ^^^ 0xffff

/-- The step of the loop of `crc16_ccitt_false`. -/
def crc16CcittFalseStep (crc : UInt16) (byte : UInt8) : UInt16 :=
  let index := (crc >>> 8).toUInt8 ^^^ byte
  ((crc <<< 8) &&& 0xff00) ^^^ crc16CcittFalseTable.getD index.toNat 0

/-- `crc16_ccitt_false`. -/
def crc16CcittFalse (data : List UInt8) : UInt16 :=
  data.foldl crc16CcittFalseStep 0xffff

/-- `crc32`. -/
def crc32 (data : List UInt8) : UInt32 :=
  let crc := data.foldl (fun (crc : UInt32) byte =>
    (crc >>> 8) ^^^ crc32Table.getD ((crc &&& 0xff).toUInt8 ^^^ byte).toNat 0) 0xffffffff
  crc ^^^ 0xffffffff

/-! ## Over a stream -/

/-- `enum crc_version`. -/
inductive CrcVersion where
  | crc16X25
  | crc16CcittFalse
  | crc32
  deriving DecidableEq

/-- `struct crc_stream`.  The two function pointers are those of the version. -/
structure CrcStream where
  version : CrcVersion
  checksum : UInt32

/-- `crc_init`. -/
def crcInit (version : CrcVersion) : CrcStream :=
  match version with
  | .crc16X25 => ⟨version, 0xffff⟩
  | .crc16CcittFalse => ⟨version, 0xffff⟩
  | .crc32 => ⟨version, 0xffffffff⟩

namespace CrcStream

/-- `crc16_x25_feed`. -/
def crc16X25Feed (checksum : UInt32) (byte : UInt8) : UInt32 :=
  let index := (checksum &&& 0xff).toUInt8 ^^^ byte
  (checksum >>> 8) ^^^ crc16X25Table.getD index.toNat 0

/-- `crc16_ccitt_false_feed`. -/
def crc16CcittFalseFeed (checksum : UInt32) (byte : UInt8) : UInt32 :=
  let index := (checksum >>> 8).toUInt8 ^^^ byte
  ((checksum <<< 8) &&& 0xff00) ^^^ (crc16CcittFalseTable.getD index.toNat 0).toUInt32

/-- `crc32_feed`. -/
def crc32Feed (checksum : UInt32) (byte : UInt8) : UInt32 :=
  let index := (checksum &&& 0xff).toUInt8 ^^^ byte
  (checksum >>> 8) ^^^ crc32Table.getD index.toNat 0

/-- `crc->feed(crc, byte)`. -/
def feed (crc : CrcStream) (byte : UInt8) : CrcStream :=
  match crc.version with
  | .crc16X25 => { crc with checksum := crc16X25Feed crc.checksum byte }
  | .crc16CcittFalse => { crc with checksum := crc16CcittFalseFeed crc.checksum byte }
  | .crc32 => { crc with checksum := crc32Feed crc.checksum byte }

/-- `crc->feed_eof(crc)`. -/
def feedEof (crc : CrcStream) : CrcStream :=
  match crc.version with
  | .crc16X25 => { crc with checksum := crc.checksum ^^^ 0xffff }
  | .crc16CcittFalse => crc
  | .crc32 => { crc with checksum := crc.checksum ^^^ 0xffffffff }

/-- `crc_feed_bytes`. -/
def crcFeedBytes (crc : CrcStream) (data : List UInt8) : CrcStream := data.foldl feed crc

end CrcStream

/-- A call that feeds a stream. -/
inductive FeedCall where
  | feed (byte : UInt8)
  | feedBytes (data : List UInt8)

/-- The bytes of the call. -/
def FeedCall.bytes : FeedCall → List UInt8
  | .feed byte => [byte]
  | .feedBytes data => data

/-- What the call makes of the stream. -/
def FeedCall.perform (crc : CrcStream) : FeedCall → CrcStream
  | .feed byte => crc.feed byte
  | .feedBytes data => crc.crcFeedBytes data

/-- The CRC of this version, at once. -/
def crcOf (version : CrcVersion) (data : List UInt8) : UInt32 :=
  match version with
  | .crc16X25 => (crc16X25 data).toUInt32
  | .crc16CcittFalse => (crc16CcittFalse data).toUInt32
  | .crc32 => crc32 data

/-! ## What they are for -/

/-- CRC-16/X.25. -/
def x25 : Crc.Parameters 16 := ⟨0x1021, 0xffff, 0xffff, true, true⟩

/-- CRC-16/CCITT-FALSE. -/
def ccittFalse : Crc.Parameters 16 := ⟨0x1021, 0xffff, 0, false, false⟩

/-- CRC-32C. -/
def castagnoli : Crc.Parameters 32 := ⟨0x1edc6f41, 0xffffffff, 0xffffffff, true, true⟩

/-- The bit-by-bit CRC of this version. -/
def CrcVersion.checksum (version : CrcVersion) (data : List UInt8) : UInt32 :=
  match version with
  | .crc16X25 => (UInt16.ofBitVec (x25.checksum data)).toUInt32
  | .crc16CcittFalse => (UInt16.ofBitVec (ccittFalse.checksum data)).toUInt32
  | .crc32 => UInt32.ofBitVec (castagnoli.checksum data)

/-- The CRC is the bit-by-bit one, at once and over a stream that is fed with the bytes in any
calls. -/
def CrcRight (version : CrcVersion) : Prop :=
  (∀ data, crcOf version data = version.checksum data) ∧
    ∀ calls : List FeedCall, (calls.foldl FeedCall.perform (crcInit version)).feedEof.checksum =
      crcOf version (calls.flatMap FeedCall.bytes)

/-! ## The tables -/

/-- The index of an entry. -/
def indices : List (BitVec 8) := (List.range 256).map (BitVec.ofNat 8)

theorem crc16X25Table_eq : (indices.map fun i => (crc16X25Table.getD i.toNat 0).toBitVec) =
    indices.map fun i => (Crc.entryReflected x25.polynomial.reverse i).setWidth 32 := by
  decide +kernel

theorem crc16CcittFalseTable_eq :
    (indices.map fun i => (crc16CcittFalseTable.getD i.toNat 0).toBitVec) =
      indices.map (Crc.entry ccittFalse.polynomial) := by
  decide +kernel

theorem crc32Table_eq : (indices.map fun i => (crc32Table.getD i.toNat 0).toBitVec) =
    indices.map (Crc.entryReflected castagnoli.polynomial.reverse) := by
  decide +kernel

theorem mem_indices (i : BitVec 8) : i ∈ indices :=
  List.mem_map.mpr ⟨i.toNat, List.mem_range.mpr i.isLt, BitVec.ofNat_toNat 8 i⟩

theorem crc16X25Table_getD (i : UInt8) : (crc16X25Table.getD i.toNat 0).toBitVec =
    (Crc.entryReflected x25.polynomial.reverse i.toBitVec).setWidth 32 :=
  List.map_inj_left.mp crc16X25Table_eq i.toBitVec (mem_indices i.toBitVec)

theorem crc16CcittFalseTable_getD (i : UInt8) :
    (crc16CcittFalseTable.getD i.toNat 0).toBitVec =
      Crc.entry ccittFalse.polynomial i.toBitVec :=
  List.map_inj_left.mp crc16CcittFalseTable_eq i.toBitVec (mem_indices i.toBitVec)

theorem crc32Table_getD (i : UInt8) : (crc32Table.getD i.toNat 0).toBitVec =
    Crc.entryReflected castagnoli.polynomial.reverse i.toBitVec :=
  List.map_inj_left.mp crc32Table_eq i.toBitVec (mem_indices i.toBitVec)

/-- No entry has a stray high bit. -/
theorem crc16X25Table_toUInt16 (i : UInt8) :
    (crc16X25Table.getD i.toNat 0).toUInt16.toUInt32 = crc16X25Table.getD i.toNat 0 := by
  apply UInt32.toBitVec_inj.mp
  rw [UInt16.toBitVec_toUInt32, UInt32.toBitVec_toUInt16, crc16X25Table_getD,
    BitVec.setWidth_setWidth_of_le (k := 16) (l := 32) _ (by decide), BitVec.setWidth_eq]

/-! ## The loops -/

theorem setWidth_and_ff {w : Nat} (crc : BitVec w) (hw : 8 ≤ w) :
    (crc &&& BitVec.ofNat w 0xff).setWidth 8 = crc.setWidth 8 := by
  apply BitVec.eq_of_toNat_eq
  have hff : 0xff % 2 ^ w = 2 ^ 8 - 1 :=
    Nat.mod_eq_of_lt (Nat.lt_of_lt_of_le (by decide) (Nat.pow_le_pow_right (by decide) hw))
  rw [BitVec.toNat_setWidth, BitVec.toNat_setWidth, BitVec.toNat_and, BitVec.toNat_ofNat, hff,
    Nat.and_two_pow_sub_one_eq_mod, Nat.mod_mod]

theorem toUInt8_and_ff16 (crc : UInt16) : (crc &&& 0xff).toUInt8 = crc.toUInt8 :=
  UInt8.toBitVec_inj.mp (setWidth_and_ff crc.toBitVec (by decide))

theorem toUInt8_and_ff32 (crc : UInt32) : (crc &&& 0xff).toUInt8 = crc.toUInt8 :=
  UInt8.toBitVec_inj.mp (setWidth_and_ff crc.toBitVec (by decide))

theorem crc16X25Step_eq (crc : UInt16) (byte : UInt8) : (crc16X25Step crc byte).toBitVec =
    (Crc.inputBits true byte.toBitVec).foldl (Crc.stepReflected x25.polynomial.reverse)
      crc.toBitVec := by
  rw [Crc.foldl_stepReflected_byte, crc16X25Step, toUInt8_and_ff16, UInt16.toBitVec_xor,
    UInt32.toBitVec_toUInt16, crc16X25Table_getD, BitVec.setWidth_setWidth_of_le _ (by decide),
    BitVec.setWidth_eq]
  rfl

theorem crc16CcittFalseStep_eq (crc : UInt16) (byte : UInt8) :
    (crc16CcittFalseStep crc byte).toBitVec =
      (Crc.inputBits false byte.toBitVec).foldl (Crc.step ccittFalse.polynomial) crc.toBitVec := by
  have htop : ∀ i < 8, (crc >>> 8).toUInt8.toBitVec.getMsbD i = crc.toBitVec.getMsbD i := by
    intro i hi
    have hi' : (8 : Nat) - 1 - i < 8 := by omega
    have hi16 : i < 16 := by omega
    have hsum : 8 + (8 - 1 - i) = 16 - 1 - i := by omega
    show ((crc.toBitVec >>> 8).setWidth 8).getMsbD i = _
    rw [BitVec.getMsbD_eq_getLsbD, BitVec.getMsbD_eq_getLsbD, BitVec.getLsbD_setWidth,
      BitVec.getLsbD_ushiftRight, hsum]
    simp [hi, hi', hi16]
  have hmask : ((crc <<< 8) &&& 0xff00).toBitVec = crc.toBitVec <<< 8 := by
    apply BitVec.eq_of_getLsbD_eq
    intro i hi
    show (crc.toBitVec <<< 8 &&& 0xff00#16).getLsbD i = _
    rw [BitVec.getLsbD_and, BitVec.getLsbD_shiftLeft]
    have hmask : ∀ i < 16, (0xff00#16).getLsbD i = !decide (i < 8) := by decide
    rw [hmask i hi]
    cases decide (i < 8) <;> simp
  rw [Crc.foldl_step_byte _ _ htop, crc16CcittFalseStep, UInt16.toBitVec_xor, hmask,
    crc16CcittFalseTable_getD, UInt8.toBitVec_xor]

theorem crc32Step_eq (crc : UInt32) (byte : UInt8) : (CrcStream.crc32Feed crc byte).toBitVec =
    (Crc.inputBits true byte.toBitVec).foldl (Crc.stepReflected castagnoli.polynomial.reverse)
      crc.toBitVec := by
  rw [Crc.foldl_stepReflected_byte, CrcStream.crc32Feed, toUInt8_and_ff32, UInt32.toBitVec_xor,
    crc32Table_getD]
  rfl

/-! ## The CRCs at once -/

/-- The bytes, one after another. -/
theorem foldl_bytes {σ : Type} {w : Nat} (abs : σ → BitVec w) {next : σ → UInt8 → σ}
    {bits : UInt8 → List Bool} {f : BitVec w → Bool → BitVec w}
    (hnext : ∀ s byte, abs (next s byte) = (bits byte).foldl f (abs s))
    (data : List UInt8) (s : σ) :
    abs (data.foldl next s) = (data.flatMap bits).foldl f (abs s) := by
  rw [List.foldl_flatMap]
  exact (List.foldl_hom abs fun s byte => (hnext s byte).symm).symm

theorem crc16X25_toBitVec (data : List UInt8) :
    (crc16X25 data).toBitVec = x25.checksum data := by
  have hfold := foldl_bytes UInt16.toBitVec crc16X25Step_eq data 0xffff
  have hregister : (x25.register data).reverse = (data.foldl crc16X25Step 0xffff).toBitVec := by
    rw [hfold, Crc.Parameters.register, Crc.reverse_foldl_step]
    rfl
  show (data.foldl crc16X25Step 0xffff).toBitVec ^^^ _ = _
  rw [← hregister]
  rfl

theorem crc16CcittFalse_toBitVec (data : List UInt8) :
    (crc16CcittFalse data).toBitVec = ccittFalse.checksum data := by
  have hfold := foldl_bytes UInt16.toBitVec crc16CcittFalseStep_eq data 0xffff
  show (data.foldl crc16CcittFalseStep 0xffff).toBitVec = ccittFalse.register data ^^^ 0#16
  rw [BitVec.xor_zero, hfold]
  rfl

theorem crc32_toBitVec (data : List UInt8) : (crc32 data).toBitVec = castagnoli.checksum data := by
  have hfold := foldl_bytes UInt32.toBitVec crc32Step_eq data 0xffffffff
  have hregister : (castagnoli.register data).reverse =
      (data.foldl CrcStream.crc32Feed 0xffffffff).toBitVec := by
    have hinit : castagnoli.init.reverse = (0xffffffff : UInt32).toBitVec := by decide +kernel
    rw [hfold, Crc.Parameters.register, Crc.reverse_foldl_step, hinit]
    rfl
  show (data.foldl CrcStream.crc32Feed 0xffffffff).toBitVec ^^^ _ = _
  rw [← hregister]
  rfl

theorem crcOf_eq (version : CrcVersion) (data : List UInt8) :
    crcOf version data = version.checksum data := by
  cases version with
  | crc16X25 => exact congrArg (fun b => (UInt16.ofBitVec b).toUInt32) (crc16X25_toBitVec data)
  | crc16CcittFalse =>
    exact congrArg (fun b => (UInt16.ofBitVec b).toUInt32) (crc16CcittFalse_toBitVec data)
  | crc32 => exact congrArg UInt32.ofBitVec (crc32_toBitVec data)

/-! ## The streams -/

/-- Any calls feed their bytes. -/
theorem perform_eq (calls : List FeedCall) (crc : CrcStream) :
    calls.foldl FeedCall.perform crc = crc.crcFeedBytes (calls.flatMap FeedCall.bytes) := by
  rw [CrcStream.crcFeedBytes, List.foldl_flatMap]
  congr 1
  funext crc call
  cases call with
  | feed byte => rfl
  | feedBytes data => rfl

theorem toUInt32_shiftRight_eight (crc : UInt16) : (crc >>> 8).toUInt32 = crc.toUInt32 >>> 8 := by
  apply UInt32.toNat_inj.mp
  rw [UInt16.toNat_toUInt32, UInt16.toNat_shiftRight, UInt32.toNat_shiftRight,
    UInt16.toNat_toUInt32]
  rfl

/-- The register of 16 bits in the one of 32 bits. -/
theorem crc16X25Feed_eq (crc : UInt16) (byte : UInt8) :
    CrcStream.crc16X25Feed crc.toUInt32 byte = (crc16X25Step crc byte).toUInt32 := by
  rw [CrcStream.crc16X25Feed, crc16X25Step, toUInt8_and_ff32, toUInt8_and_ff16,
    UInt16.toUInt32_xor, crc16X25Table_toUInt16, toUInt32_shiftRight_eight,
    UInt16.toUInt8_toUInt32]

theorem crc16CcittFalseFeed_eq (crc : UInt16) (byte : UInt8) :
    CrcStream.crc16CcittFalseFeed crc.toUInt32 byte = (crc16CcittFalseStep crc byte).toUInt32 := by
  have hmask : (crc.toUInt32 <<< 8) &&& (0xff00 : UInt32) =
      ((crc <<< 8) &&& (0xff00 : UInt16)).toUInt32 := by
    apply UInt32.toBitVec_inj.mp
    apply BitVec.eq_of_getLsbD_eq
    intro i hi
    show (crc.toBitVec.setWidth 32 <<< 8 &&& 0xff00#32).getLsbD i =
      ((crc.toBitVec <<< 8 &&& 0xff00#16).setWidth 32).getLsbD i
    have hwide : ∀ i < 32, (0xff00#32).getLsbD i = (0xff00#16).getLsbD i := by decide
    rw [BitVec.getLsbD_setWidth, BitVec.getLsbD_and, BitVec.getLsbD_and, hwide i hi]
    have hlow : (0xff00#16).getLsbD i = true → i < 16 := BitVec.lt_of_getLsbD
    cases hbit : (0xff00#16).getLsbD i with
    | false => simp
    | true =>
      have hi24 : i - 8 < 32 := by omega
      rw [BitVec.getLsbD_shiftLeft, BitVec.getLsbD_shiftLeft, BitVec.getLsbD_setWidth,
        decide_eq_true hi, decide_eq_true (hlow hbit), decide_eq_true hi24]
      simp only [Bool.true_and, Bool.and_true]
  rw [CrcStream.crc16CcittFalseFeed, crc16CcittFalseStep, UInt16.toUInt32_xor, ← hmask,
    ← toUInt32_shiftRight_eight, UInt16.toUInt8_toUInt32]

/-- The stream keeps its version, and its register follows `next`. -/
theorem crcFeedBytes_eq {σ : Type} (version : CrcVersion) (register : σ → UInt32)
    {next : σ → UInt8 → σ}
    (hnext : ∀ s byte, (CrcStream.mk version (register s)).feed byte =
      CrcStream.mk version (register (next s byte))) (data : List UInt8) (s : σ) :
    (CrcStream.mk version (register s)).crcFeedBytes data =
      CrcStream.mk version (register (data.foldl next s)) :=
  List.foldl_hom (fun s => CrcStream.mk version (register s)) hnext

theorem feedEof_crcFeedBytes (version : CrcVersion) (data : List UInt8) :
    ((crcInit version).crcFeedBytes data).feedEof.checksum = crcOf version data := by
  cases version with
  | crc16X25 =>
    have hfeed := crcFeedBytes_eq .crc16X25 UInt16.toUInt32
      (fun crc byte => congrArg (CrcStream.mk .crc16X25) (crc16X25Feed_eq crc byte)) data 0xffff
    rw [crcInit, show (0xffff : UInt32) = UInt16.toUInt32 0xffff from rfl, hfeed]
    exact (UInt16.toUInt32_xor _ 0xffff).symm
  | crc16CcittFalse =>
    have hfeed := crcFeedBytes_eq .crc16CcittFalse UInt16.toUInt32 (fun crc byte =>
      congrArg (CrcStream.mk .crc16CcittFalse) (crc16CcittFalseFeed_eq crc byte)) data 0xffff
    rw [crcInit, show (0xffff : UInt32) = UInt16.toUInt32 0xffff from rfl, hfeed]
    rfl
  | crc32 =>
    have hfeed := crcFeedBytes_eq .crc32 id (fun crc byte => rfl) data 0xffffffff
    exact congrArg (fun crc => (CrcStream.feedEof crc).checksum) hfeed

/-- Every CRC is right. -/
theorem crcRight (version : CrcVersion) : CrcRight version := by
  refine ⟨crcOf_eq version, fun calls => ?_⟩
  rw [perform_eq]
  exact feedEof_crcFeedBytes version _

end Upcn.Crc
