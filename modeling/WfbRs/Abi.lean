import WfbRs.Lib.CLayout
import WfbRs.Python.Api

/-!
# The records of the C interface (`ffi.rs`, `wfb_rs.h`, `_ffi.py`)

The three records that cross the C interface are declared three times: in Rust with `repr(C)`,
in the C header and as `ctypes` structures.  The library writes metadata through the Rust
declaration and Python reads them through its own; configurations go the other way.  The machine
has pointers of eight bytes and stores integers with the low byte first.
-/

namespace WfbRs

open CLayout Python

namespace Abi

/-! ### The declarations -/

def u8 : CType := .int 1 (by omega)

def u16 : CType := .int 2 (by omega)

def u32 : CType := .int 4 (by omega)

def pointer : CType := .int 8 (by omega)

/-- `wfb_tx_config` of `ffi.rs`. -/
def rustTxConfig : List Member :=
  [⟨"iface", pointer⟩, ⟨"stream_id", u32⟩, ⟨"frame_type", u8⟩, ⟨"mcs_index", u8⟩, ⟨"bandwidth", u8⟩]

/-- `wfb_rx_config` of `ffi.rs`. -/
def rustRxConfig : List Member :=
  [⟨"iface", pointer⟩, ⟨"stream_id", u32⟩, ⟨"ignore_self_injected", u8⟩, ⟨"ring_size", u32⟩]

/-- `wfb_rx_meta` of `ffi.rs`; `i8` has the layout of `u8`. -/
def rustRxMeta : List Member :=
  [⟨"seq", u32⟩, ⟨"flags", u8⟩, ⟨"freq", u16⟩, ⟨"mcs_index", u8⟩, ⟨"bandwidth", u8⟩,
    ⟨"antenna", u8.array 4⟩, ⟨"rssi", u8.array 4⟩, ⟨"noise", u8.array 4⟩, ⟨"antenna_count", u8⟩,
    ⟨"truncated", u8⟩]

/-- `wfb_tx_config` of `wfb_rs.h`. -/
def headerTxConfig : List Member :=
  [⟨"iface", pointer⟩, ⟨"stream_id", u32⟩, ⟨"frame_type", u8⟩, ⟨"mcs_index", u8⟩, ⟨"bandwidth", u8⟩]

/-- `wfb_rx_config` of `wfb_rs.h`. -/
def headerRxConfig : List Member :=
  [⟨"iface", pointer⟩, ⟨"stream_id", u32⟩, ⟨"ignore_self_injected", u8⟩, ⟨"ring_size", u32⟩]

/-- `wfb_rx_meta` of `wfb_rs.h`. -/
def headerRxMeta : List Member :=
  [⟨"seq", u32⟩, ⟨"flags", u8⟩, ⟨"freq", u16⟩, ⟨"mcs_index", u8⟩, ⟨"bandwidth", u8⟩,
    ⟨"antenna", u8.array 4⟩, ⟨"rssi", u8.array 4⟩, ⟨"noise", u8.array 4⟩, ⟨"antenna_count", u8⟩,
    ⟨"truncated", u8⟩]

/-- `WfbTxConfig` of `_ffi.py`. -/
def ctypesTxConfig : List Member :=
  [⟨"iface", pointer⟩, ⟨"stream_id", u32⟩, ⟨"frame_type", u8⟩, ⟨"mcs_index", u8⟩, ⟨"bandwidth", u8⟩]

/-- `WfbRxConfig` of `_ffi.py`. -/
def ctypesRxConfig : List Member :=
  [⟨"iface", pointer⟩, ⟨"stream_id", u32⟩, ⟨"ignore_self_injected", u8⟩, ⟨"ring_size", u32⟩]

/-- `WfbRxMeta` of `_ffi.py`. -/
def ctypesRxMeta : List Member :=
  [⟨"seq", u32⟩, ⟨"flags", u8⟩, ⟨"freq", u16⟩, ⟨"mcs_index", u8⟩, ⟨"bandwidth", u8⟩,
    ⟨"antenna", u8.array 4⟩, ⟨"rssi", u8.array 4⟩, ⟨"noise", u8.array 4⟩, ⟨"antenna_count", u8⟩,
    ⟨"truncated", u8⟩]

/-- The declarations that a caller of the library uses. -/
structure Caller where
  txConfig : List Member
  rxConfig : List Member
  rxMeta : List Member

def header : Caller := ⟨headerTxConfig, headerRxConfig, headerRxMeta⟩

def ctypes : Caller := ⟨ctypesTxConfig, ctypesRxConfig, ctypesRxMeta⟩

-- the offsets and the size that the layout tests of the package ask for
example : offsetOf ctypesRxMeta "seq" = some 0 ∧ offsetOf ctypesRxMeta "flags" = some 4 ∧
    offsetOf ctypesRxMeta "freq" = some 6 ∧ CLayout.sizeOf ctypesRxMeta = 24 := by decide

/-! ### What is stored -/

end Abi

/-- The bytes of a `wfb_tx_config` whose `iface` points to `ptr`. -/
def CTxConfig.value (cfg : CTxConfig) (ptr : UInt64) : Value
  | "iface" => Words.toLE 8 ptr.toNat
  | "stream_id" => Words.toLE 4 cfg.streamId.toNat
  | "frame_type" => [cfg.frameType]
  | "mcs_index" => [cfg.mcsIndex]
  | "bandwidth" => [cfg.bandwidth]
  | _ => []

/-- The bytes of a `wfb_rx_config`. -/
def CRxConfig.value (cfg : CRxConfig) (ptr : UInt64) : Value
  | "iface" => Words.toLE 8 ptr.toNat
  | "stream_id" => Words.toLE 4 cfg.streamId.toNat
  | "ignore_self_injected" => [cfg.ignoreSelfInjected]
  | "ring_size" => Words.toLE 4 cfg.ringSize.toNat
  | _ => []

/-- The bytes of a `wfb_rx_meta`. -/
def CRxMeta.value (m : CRxMeta) : Value
  | "seq" => Words.toLE 4 m.seq.toNat
  | "flags" => [m.flags]
  | "freq" => Words.toLE 2 m.freq.toNat
  | "mcs_index" => [m.mcsIndex]
  | "bandwidth" => [m.bandwidth]
  | "antenna" => m.antenna.toList
  | "rssi" => m.rssi.toList.map Int8.toUInt8
  | "noise" => m.noise.toList.map Int8.toUInt8
  | "antenna_count" => [m.antennaCount]
  | "truncated" => [m.truncated]
  | _ => []

namespace Abi

/-! ### What is read -/

def readU8 (bytes : List UInt8) : UInt8 := bytes.getD 0 0

def readU16 (bytes : List UInt8) : UInt16 := UInt16.ofNat (Words.ofLE bytes)

def readU32 (bytes : List UInt8) : UInt32 := UInt32.ofNat (Words.ofLE bytes)

def readPointer (bytes : List UInt8) : UInt64 := UInt64.ofNat (Words.ofLE bytes)

/-- The configuration that `wfb_tx_open` finds at an address; `strings` are the strings in memory. -/
def readTxConfig (strings : UInt64 → Option (List UInt8)) (mem : List UInt8) (addr : ℕ) :
    CTxConfig where
  iface := strings (readPointer (member rustTxConfig mem addr "iface"))
  streamId := readU32 (member rustTxConfig mem addr "stream_id")
  frameType := readU8 (member rustTxConfig mem addr "frame_type")
  mcsIndex := readU8 (member rustTxConfig mem addr "mcs_index")
  bandwidth := readU8 (member rustTxConfig mem addr "bandwidth")

/-- The configuration that `wfb_rx_open` finds. -/
def readRxConfig (strings : UInt64 → Option (List UInt8)) (mem : List UInt8) (addr : ℕ) :
    CRxConfig where
  iface := strings (readPointer (member rustRxConfig mem addr "iface"))
  streamId := readU32 (member rustRxConfig mem addr "stream_id")
  ignoreSelfInjected := readU8 (member rustRxConfig mem addr "ignore_self_injected")
  ringSize := readU32 (member rustRxConfig mem addr "ring_size")

/-- The metadata that a caller finds. -/
def readRxMeta (caller : Caller) (mem : List UInt8) (addr : ℕ) : CRxMeta where
  seq := readU32 (member caller.rxMeta mem addr "seq")
  flags := readU8 (member caller.rxMeta mem addr "flags")
  freq := readU16 (member caller.rxMeta mem addr "freq")
  mcsIndex := readU8 (member caller.rxMeta mem addr "mcs_index")
  bandwidth := readU8 (member caller.rxMeta mem addr "bandwidth")
  antenna := .ofFn fun i => (member caller.rxMeta mem addr "antenna").getD i 0
  rssi := .ofFn fun i => ((member caller.rxMeta mem addr "rssi").getD i 0).toInt8
  noise := .ofFn fun i => ((member caller.rxMeta mem addr "noise").getD i 0).toInt8
  antennaCount := readU8 (member caller.rxMeta mem addr "antenna_count")
  truncated := readU8 (member caller.rxMeta mem addr "truncated")

lemma readU16_toLE (n : UInt16) : readU16 (Words.toLE 2 n.toNat) = n := by
  rw [readU16, Words.ofLE_toLE n.toNat_lt, UInt16.ofNat_toNat]

lemma readU32_toLE (n : UInt32) : readU32 (Words.toLE 4 n.toNat) = n := by
  rw [readU32, Words.ofLE_toLE n.toNat_lt, UInt32.ofNat_toNat]

lemma readPointer_toLE (n : UInt64) : readPointer (Words.toLE 8 n.toNat) = n := by
  rw [readPointer, Words.ofLE_toLE n.toNat_lt, UInt64.ofNat_toNat]

lemma ofFn_toList (v : Vector UInt8 4) : Vector.ofFn (fun i : Fin 4 => v.toList.getD i 0) = v := by
  ext i hi
  rw [Vector.getElem_ofFn, List.getD_eq_getElem _ _ (by simpa using hi), Vector.getElem_toList]

lemma ofFn_toInt8 (v : Vector Int8 4) :
    Vector.ofFn (fun i : Fin 4 => ((v.toList.map Int8.toUInt8).getD i 0).toInt8) = v := by
  ext i hi
  rw [Vector.getElem_ofFn, List.getD_eq_getElem _ _ (by simpa using hi), List.getElem_map,
    Vector.getElem_toList, Int8.toInt8_toUInt8]

/-- All declare the records as the library does. -/
lemma declares {caller : Caller} (h : caller ∈ [header, ctypes]) :
    caller = ⟨rustTxConfig, rustRxConfig, rustRxMeta⟩ := by
  rcases List.mem_pair.mp h with rfl | rfl <;> rfl

/-- The metadata that a caller finds where the library has written them. -/
lemma readRxMeta_eq {caller : Caller} (hcaller : caller ∈ [header, ctypes]) {m : CRxMeta}
    {mem : List UInt8} {addr : ℕ} (h : Holds rustRxMeta m.value mem addr) :
    readRxMeta caller mem addr = m := by
  have hmember (name : String) (hname : (offsetOf rustRxMeta name).isSome) :
      member caller.rxMeta mem addr name = m.value name := by
    rw [declares hcaller]
    exact h.member hname
  rw [readRxMeta, hmember "seq" (by decide), hmember "flags" (by decide),
    hmember "freq" (by decide), hmember "mcs_index" (by decide), hmember "bandwidth" (by decide),
    hmember "antenna" (by decide), hmember "rssi" (by decide), hmember "noise" (by decide),
    hmember "antenna_count" (by decide), hmember "truncated" (by decide)]
  simp only [CRxMeta.value, readU32_toLE, readU16_toLE, ofFn_toList, ofFn_toInt8]
  rfl

/-- The configuration that the library finds where a caller has stored it. -/
lemma readTxConfig_eq {cfg : CTxConfig} {ptr : UInt64} {strings : UInt64 → Option (List UInt8)}
    (hptr : strings ptr = cfg.iface) {mem : List UInt8} {addr : ℕ}
    (h : Holds rustTxConfig (cfg.value ptr) mem addr) : readTxConfig strings mem addr = cfg := by
  rw [readTxConfig, h.member (by decide), h.member (by decide), h.member (by decide),
    h.member (by decide), h.member (by decide)]
  simp only [CTxConfig.value, readPointer_toLE, readU32_toLE, hptr]
  rfl

lemma readRxConfig_eq {cfg : CRxConfig} {ptr : UInt64} {strings : UInt64 → Option (List UInt8)}
    (hptr : strings ptr = cfg.iface) {mem : List UInt8} {addr : ℕ}
    (h : Holds rustRxConfig (cfg.value ptr) mem addr) : readRxConfig strings mem addr = cfg := by
  rw [readRxConfig, h.member (by decide), h.member (by decide), h.member (by decide),
    h.member (by decide)]
  simp only [CRxConfig.value, readPointer_toLE, readU32_toLE, hptr]
  rfl

/-! ### What is stored fits -/

lemma fits_rxMeta (m : CRxMeta) : CLayout.Fits rustRxMeta m.value := by
  simp [CLayout.Fits, rustRxMeta, place, CRxMeta.value, u8, u16, u32, CType.int, CType.array]

lemma fits_txConfig (cfg : CTxConfig) (ptr : UInt64) :
    CLayout.Fits rustTxConfig (cfg.value ptr) := by
  simp [CLayout.Fits, rustTxConfig, place, CTxConfig.value, u8, u32, pointer, CType.int]

lemma fits_rxConfig (cfg : CRxConfig) (ptr : UInt64) :
    CLayout.Fits rustRxConfig (cfg.value ptr) := by
  simp [CLayout.Fits, rustRxConfig, place, CRxConfig.value, u8, u32, pointer, CType.int]

end Abi

/-- The metadata of the receiver in Python integers. -/
def Python.RxMeta.ofRust (m : WfbRxMeta) : RxMeta where
  seq := m.seq.toNat
  flags := m.flags.toNat
  freq := m.freq.toNat
  mcsIndex := m.mcsIndex.toNat
  bandwidth := m.bandwidth.toNat
  antenna := m.antenna.map fun x => (x.toNat : ℤ)
  rssi := m.rssi.map Int8.toInt
  noise := m.noise.map Int8.toInt
  antennaCount := m.antennaCount.toNat
  truncated := m.truncated

lemma Python.RxMeta.fromCtype_toCMeta (m : WfbRxMeta) :
    RxMeta.fromCtype (toCMeta m) = .ofRust m := by
  cases h : m.truncated <;> simp [RxMeta.fromCtype, toCMeta, RxMeta.ofRust, h]

namespace Abi

/-- The memory after a record was stored member by member. -/
def written (ms : List Member) (v : Value) (addr : ℕ) (mem : List UInt8) : List UInt8 :=
  storeAll v addr mem (place 0 ms)

/-- Nothing but the `size` bytes at the address differs. -/
def OnlyAt (addr size : ℕ) (mem mem' : List UInt8) : Prop :=
  ∀ a n, a + n ≤ addr ∨ addr + size ≤ a → load mem' a n = load mem a n

/-- **The records of the interface.** What one side stores in a record of the other side's size,
the other side reads, and the memory beside the record stays as it is: a caller in C or in Python
gets the metadata that the library has written, and the library the configurations that the caller
has made.  Python makes of the metadata what the receiver meant. -/
theorem records_cross (strings : UInt64 → Option (List UInt8)) {mem : List UInt8} {addr : ℕ} :
    (∀ caller ∈ [header, ctypes],
      (addr + CLayout.sizeOf caller.rxMeta ≤ mem.length → ∀ m : CRxMeta,
        readRxMeta caller (written rustRxMeta m.value addr mem) addr = m ∧
          OnlyAt addr (CLayout.sizeOf caller.rxMeta) mem (written rustRxMeta m.value addr mem)) ∧
      (addr + CLayout.sizeOf rustTxConfig ≤ mem.length → ∀ (cfg : CTxConfig) (ptr : UInt64),
        strings ptr = cfg.iface →
        readTxConfig strings (written caller.txConfig (cfg.value ptr) addr mem) addr = cfg ∧
          OnlyAt addr (CLayout.sizeOf rustTxConfig) mem
            (written caller.txConfig (cfg.value ptr) addr mem)) ∧
      (addr + CLayout.sizeOf rustRxConfig ≤ mem.length → ∀ (cfg : CRxConfig) (ptr : UInt64),
        strings ptr = cfg.iface →
        readRxConfig strings (written caller.rxConfig (cfg.value ptr) addr mem) addr = cfg ∧
          OnlyAt addr (CLayout.sizeOf rustRxConfig) mem
            (written caller.rxConfig (cfg.value ptr) addr mem))) ∧
    (addr + CLayout.sizeOf ctypesRxMeta ≤ mem.length → ∀ m : WfbRxMeta,
      RxMeta.fromCtype (readRxMeta ctypes (written rustRxMeta (toCMeta m).value addr mem) addr) =
        .ofRust m) := by
  refine ⟨fun caller hcaller => ⟨fun hin m => ?_, fun hin cfg ptr hptr => ?_,
    fun hin cfg ptr hptr => ?_⟩, fun hin m => ?_⟩
  · obtain ⟨hholds, honly⟩ := holds_storeAll (fits_rxMeta m) (by rwa [declares hcaller] at hin)
    exact ⟨readRxMeta_eq hcaller hholds, by rwa [declares hcaller]⟩
  · obtain ⟨hholds, honly⟩ := holds_storeAll (fits_txConfig cfg ptr) hin
    rw [declares hcaller]
    exact ⟨readTxConfig_eq hptr hholds, honly⟩
  · obtain ⟨hholds, honly⟩ := holds_storeAll (fits_rxConfig cfg ptr) hin
    rw [declares hcaller]
    exact ⟨readRxConfig_eq hptr hholds, honly⟩
  · obtain ⟨hholds, -⟩ := holds_storeAll (fits_rxMeta (toCMeta m)) hin
    rw [written, readRxMeta_eq (by simp) hholds, RxMeta.fromCtype_toCMeta]

/-- Thirty-two bytes, with room for a record behind the eighth. -/
def someMemory : List UInt8 := List.replicate 32 0xff

def someTxConfig : CTxConfig := ⟨none, 1, 8, 1, 20⟩

def someRxConfig : CRxConfig := ⟨none, 1, 1, 16⟩

theorem someMemory_records :
    RxMeta.fromCtype (readRxMeta ctypes (written rustRxMeta (toCMeta { seq := 7, flags := 1 }).value
        8 someMemory) 8) = .ofRust { seq := 7, flags := 1 } ∧
      readRxMeta header (written rustRxMeta (toCMeta { seq := 7, flags := 1 }).value 8 someMemory)
        8 = toCMeta { seq := 7, flags := 1 } ∧
      readTxConfig (fun _ => none) (written ctypesTxConfig (someTxConfig.value 0) 8 someMemory) 8 =
        someTxConfig ∧
      readRxConfig (fun _ => none) (written headerRxConfig (someRxConfig.value 0) 8 someMemory) 8 =
        someRxConfig := by
  obtain ⟨hcallers, hpython⟩ := @records_cross (fun _ => none) someMemory 8
  obtain ⟨hmeta, -, hrx⟩ := hcallers header (by simp)
  obtain ⟨-, htx, -⟩ := hcallers ctypes (by simp)
  exact ⟨hpython (by decide) _, (hmeta (by decide) _).1, (htx (by decide) _ 0 rfl).1,
    (hrx (by decide) _ 0 rfl).1⟩

end Abi

end WfbRs
