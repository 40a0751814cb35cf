import WfbRs.Python.Api

/-!
# The library behind the package (`get_capi` of `_ffi.py`)

`get_capi` looks for the shared library, asks it for its ABI version, and keeps what it has loaded
for the calls that name no path.  The environment, the files and the libraries may change from one
call to the next.
-/

namespace WfbRs

namespace Python

namespace Loader

/-! ### What a call finds around it -/

/-- A shared library: its symbols, and what `wfb_rs_abi_version` returns. -/
structure SharedLib where
  symbols : List String
  abiVersion : UInt32
deriving DecidableEq

/-- The surroundings of a call. -/
structure Surroundings where
  getenv : String → Option String
  exists? : String → Bool
  /-- `ctypes.CDLL`, or the text of its `OSError`. -/
  cdll : String → Except String SharedLib
  findLibrary : String → Option String
  crateRoot : String

/-- What `get_capi` raises. -/
inductive LoadError
  | runtimeError (message : String)
  /-- The `RuntimeError` that lists the paths that were searched. -/
  | unableToLocate (searched : List String)
  | attributeError (symbol : String)
deriving DecidableEq

structure WfbRsCapi where
  lib : SharedLib
  source : String
  abiVersion : ℕ
deriving DecidableEq

/-! ### Paths -/

/-- The root of a path: two slashes are kept, three or more are one. -/
def rootOf : List Char → String
  | '/' :: '/' :: '/' :: _ => "/"
  | '/' :: '/' :: _ => "//"
  | '/' :: _ => "/"
  | _ => ""

/-- `str(Path(s) / part / …)`. -/
def joinPath (s : String) (parts : List String) : String :=
  rootOf s.toList ++
    "/".intercalate ((s.splitOn "/").filter (fun part => part ≠ "" ∧ part ≠ ".") ++ parts)

def libraryName : String := "libwfb_rs.so"

/-- An empty string counts as none. -/
def given (s : Option String) : Option String := s.filter fun text => text ≠ ""

def candidatePaths (w : Surroundings) : List String :=
  ((given (w.getenv "CARGO_TARGET_DIR")).map fun target =>
    joinPath target ["release", libraryName]).toList ++
    [joinPath w.crateRoot ["target", "release", libraryName]]

/-! ### Loading -/

def loadFromCdllPath (w : Surroundings) (path : String) : Except LoadError SharedLib :=
  (w.cdll path).mapError fun exc =>
    .runtimeError s!"failed to load shared library from '{path}': {exc}"

def loadLibrary (w : Surroundings) (libPath : Option String) :
    Except LoadError (SharedLib × String) :=
  match given libPath with
  | some path => (loadFromCdllPath w path).map (·, path)
  | none =>
      match given (w.getenv "WFB_RS_LIB_PATH") with
      | some path => (loadFromCdllPath w path).map (·, path)
      | none =>
          match (candidatePaths w).find? w.exists? with
          | some path => (loadFromCdllPath w path).map (·, path)
          | none =>
              match given (w.findLibrary "wfb_rs") with
              | some name => (loadFromCdllPath w name).map (·, name)
              | none => .error (.unableToLocate (candidatePaths w))

def wfbRsAbiVersion : ℕ := 1

/-- The functions whose signatures are set, in order. -/
def wired : List String :=
  ["wfb_rs_abi_version", "wfb_rs_max_payload", "wfb_tx_open", "wfb_tx_close", "wfb_tx_send",
    "wfb_rx_open", "wfb_rx_close", "wfb_rx_recv"]

def wireSignatures (lib : SharedLib) : Except LoadError Unit :=
  match wired.find? (fun symbol => symbol ∉ lib.symbols) with
  | some symbol => .error (.attributeError symbol)
  | none => .ok ()

/-- `get_capi` without what it keeps. -/
def loadCapi (w : Surroundings) (libPath : Option String) : Except LoadError WfbRsCapi := do
  let (lib, source) ← loadLibrary w libPath
  wireSignatures lib
  let abi := lib.abiVersion.toNat
  if abi ≠ wfbRsAbiVersion then
    throw (.runtimeError s!"ABI mismatch: expected {wfbRsAbiVersion}, got {abi} from '{source}'")
  return ⟨lib, source, abi⟩

/-- A call of `get_capi`. -/
structure Call where
  surroundings : Surroundings
  libPath : Option String
  forceReload : Bool

def Call.load (c : Call) : Except LoadError WfbRsCapi := loadCapi c.surroundings c.libPath

/-- `get_capi`, with the value of `_GLOBAL_CAPI` before and behind the call. -/
def getCapi (globalCapi : Option WfbRsCapi) (c : Call) :
    Except LoadError WfbRsCapi × Option WfbRsCapi :=
  match (if c.libPath = none ∧ ¬ c.forceReload then globalCapi else none) with
  | some capi => (.ok capi, globalCapi)
  | none =>
      match c.load with
      | .error e => (.error e, globalCapi)
      | .ok capi => (.ok capi, if c.libPath = none then some capi else globalCapi)

/-- Calls one after the other. -/
def getCapis (globalCapi : Option WfbRsCapi) :
    List Call → List (Except LoadError WfbRsCapi) × Option WfbRsCapi
  | [] => ([], globalCapi)
  | c :: cs =>
      let out := getCapi globalCapi c
      let rest := getCapis out.2 cs
      (out.1 :: rest.1, rest.2)

/-! ### Which library is loaded -/

/-- The path that a call loads its library from; the others are not looked at. -/
inductive Finds (w : Surroundings) : Option String → String → Prop
  | argument {path : String} (hpath : path ≠ "") : Finds w (some path) path
  | environment {libPath : Option String} {path : String} (harg : given libPath = none)
      (henv : w.getenv "WFB_RS_LIB_PATH" = some path) (hpath : path ≠ "") : Finds w libPath path
  /-- The first candidate that exists. -/
  | file {libPath : Option String} {path : String} (before after : List String)
      (harg : given libPath = none) (henv : given (w.getenv "WFB_RS_LIB_PATH") = none)
      (hpaths : candidatePaths w = before ++ path :: after) (hpath : w.exists? path)
      (hbefore : ∀ p ∈ before, ¬ w.exists? p) : Finds w libPath path
  | system {libPath : Option String} {name : String} (harg : given libPath = none)
      (henv : given (w.getenv "WFB_RS_LIB_PATH") = none)
      (hpaths : ∀ p ∈ candidatePaths w, ¬ w.exists? p)
      (hname : w.findLibrary "wfb_rs" = some name) (hne : name ≠ "") : Finds w libPath name

variable {w : Surroundings} {libPath : Option String}

lemma given_eq_some {s : Option String} {text : String} :
    given s = some text ↔ s = some text ∧ text ≠ "" := by
  rw [given, Option.filter_eq_some_iff]
  simp

/-- What comes of a path is its library, or an error. -/
lemma load_path_eq_ok {path : String} {lib : SharedLib} {source : String} :
    (loadFromCdllPath w path).map (·, path) = .ok (lib, source) ↔
      source = path ∧ w.cdll source = .ok lib := by
  rw [loadFromCdllPath]
  cases hlib : w.cdll path with
  | error exc =>
      refine iff_of_false (by simp [Except.mapError, Except.map]) ?_
      rintro ⟨rfl, hok⟩
      rw [hlib] at hok
      cases hok
  | ok lib' =>
      simp only [Except.mapError, Except.map, Except.ok.injEq, Prod.mk.injEq]
      constructor
      · rintro ⟨rfl, rfl⟩
        exact ⟨rfl, hlib⟩
      · rintro ⟨rfl, hok⟩
        exact ⟨Except.ok.inj (hlib.symm.trans hok), rfl⟩

lemma find_eq_some {paths : List String} {path : String} :
    paths.find? w.exists? = some path ↔ w.exists? path ∧ ∃ before after,
      paths = before ++ path :: after ∧ ∀ p ∈ before, ¬ w.exists? p := by
  rw [List.find?_eq_some_iff_append]
  simp

/-- A library is loaded from the path that the call finds. -/
lemma loadLibrary_eq_ok {lib : SharedLib} {source : String} :
    loadLibrary w libPath = .ok (lib, source) ↔
      Finds w libPath source ∧ w.cdll source = .ok lib := by
  constructor
  · intro h
    cases harg : given libPath with
    | some path =>
        simp only [loadLibrary, harg] at h
        obtain ⟨rfl, hlib⟩ := load_path_eq_ok.mp h
        obtain ⟨rfl, hpath⟩ := given_eq_some.mp harg
        exact ⟨.argument hpath, hlib⟩
    | none =>
        cases henv : given (w.getenv "WFB_RS_LIB_PATH") with
        | some path =>
            simp only [loadLibrary, harg, henv] at h
            obtain ⟨rfl, hlib⟩ := load_path_eq_ok.mp h
            obtain ⟨henv', hpath⟩ := given_eq_some.mp henv
            exact ⟨.environment harg henv' hpath, hlib⟩
        | none =>
            cases hfind : (candidatePaths w).find? w.exists? with
            | some path =>
                simp only [loadLibrary, harg, henv, hfind] at h
                obtain ⟨rfl, hlib⟩ := load_path_eq_ok.mp h
                obtain ⟨hpath, before, after, hpaths, hbefore⟩ := find_eq_some.mp hfind
                exact ⟨.file before after harg henv hpaths hpath hbefore, hlib⟩
            | none =>
                cases hname : given (w.findLibrary "wfb_rs") with
                | none => simp [loadLibrary, harg, henv, hfind, hname] at h
                | some name =>
                    simp only [loadLibrary, harg, henv, hfind, hname] at h
                    obtain ⟨rfl, hlib⟩ := load_path_eq_ok.mp h
                    obtain ⟨hname', hne⟩ := given_eq_some.mp hname
                    exact ⟨.system harg henv (List.find?_eq_none.mp hfind) hname' hne, hlib⟩
  · rintro ⟨hfinds, hlib⟩
    have hload := load_path_eq_ok.mpr ⟨rfl, hlib⟩
    cases hfinds with
    | argument hpath =>
        simp only [loadLibrary, given_eq_some.mpr ⟨rfl, hpath⟩]
        exact hload
    | environment harg henv hpath =>
        simp only [loadLibrary, harg, given_eq_some.mpr ⟨henv, hpath⟩]
        exact hload
    | file before after harg henv hpaths hpath hbefore =>
        simp only [loadLibrary, harg, henv, find_eq_some.mpr ⟨hpath, before, after, hpaths, hbefore⟩]
        exact hload
    | system harg henv hpaths hname hne =>
        simp only [loadLibrary, harg, henv, List.find?_eq_none.mpr hpaths,
          given_eq_some.mpr ⟨hname, hne⟩]
        exact hload

lemma wireSignatures_eq_ok {lib : SharedLib} {u : Unit} :
    wireSignatures lib = .ok u ↔ ∀ symbol ∈ wired, symbol ∈ lib.symbols := by
  rw [wireSignatures]
  cases hfind : wired.find? fun symbol => symbol ∉ lib.symbols with
  | none =>
      refine iff_of_true rfl fun symbol hsymbol => ?_
      simpa using List.find?_eq_none.mp hfind symbol hsymbol
  | some symbol =>
      refine iff_of_false (by simp) fun hall => ?_
      have hmissing := List.find?_some hfind
      simp only [decide_eq_true_eq] at hmissing
      exact hmissing (hall symbol (List.mem_of_find?_eq_some hfind))

lemma bind_ok {ε α β : Type} {x : Except ε α} {f : α → Except ε β} {b : β}
    (h : x >>= f = .ok b) : ∃ a, x = .ok a ∧ f a = .ok b := by
  cases x with
  | error e => cases h
  | ok a => exact ⟨a, rfl, h⟩

/-- What a call loads has every function of the interface, and the version of the package. -/
lemma loadCapi_eq_ok {capi : WfbRsCapi} : loadCapi w libPath = .ok capi ↔
    Finds w libPath capi.source ∧ w.cdll capi.source = .ok capi.lib ∧
      (∀ symbol ∈ wired, symbol ∈ capi.lib.symbols) ∧ capi.lib.abiVersion = 1 ∧
      capi.abiVersion = 1 := by
  obtain ⟨lib, source, abiVersion⟩ := capi
  rw [← and_assoc, ← loadLibrary_eq_ok, loadCapi]
  constructor
  · intro h
    obtain ⟨⟨lib', source'⟩, hlib, h⟩ := bind_ok h
    obtain ⟨u, hwire, h⟩ := bind_ok h
    by_cases habi : lib'.abiVersion.toNat = wfbRsAbiVersion
    · simp only [habi, ne_eq, not_true_eq_false, if_false] at h
      obtain ⟨rfl, rfl, rfl⟩ := WfbRsCapi.mk.inj (Except.ok.inj h)
      exact ⟨hlib, wireSignatures_eq_ok.mp hwire, UInt32.toNat_inj.mp habi, rfl⟩
    · simp [habi, throw, throwThe, MonadExceptOf.throw, bind, Except.bind] at h
  · rintro ⟨hlib, hwire, habi, rfl⟩
    have habi' : lib.abiVersion.toNat = wfbRsAbiVersion := congrArg UInt32.toNat habi
    simp only [hlib, bind, Except.bind, (wireSignatures_eq_ok (u := ())).mpr hwire, habi', ne_eq,
      not_true_eq_false, if_false]
    rfl

/-! ### What is kept -/

/-- The libraries that these calls can load. -/
def loads (calls : List Call) : List WfbRsCapi := calls.filterMap fun c => c.load.toOption

/-- What is kept behind these calls: of those without a path, what the last one loads that is forced
to, or else the first one. -/
def kept (calls : List Call) : Option WfbRsCapi :=
  (loads (calls.filter fun c => c.libPath = none ∧ c.forceReload)).getLast?.or
    (loads (calls.filter fun c => c.libPath = none)).head?

/-- The answer to a call behind others. -/
def answered (past : List Call) (c : Call) : Except LoadError WfbRsCapi :=
  if c.libPath = none ∧ ¬ c.forceReload then
    match kept past with
    | some capi => .ok capi
    | none => c.load
  else c.load

lemma loads_concat (calls : List Call) (c : Call) :
    loads (calls ++ [c]) = loads calls ++ c.load.toOption.toList := by
  rw [loads, List.filterMap_append, ← loads]
  cases h : c.load.toOption <;> simp [h]

/-- A call with a path keeps nothing. -/
lemma kept_path {calls : List Call} {c : Call} (h : c.libPath ≠ none) :
    kept (calls ++ [c]) = kept calls := by
  simp [kept, h]

lemma kept_forced {calls : List Call} {c : Call} (h : c.libPath = none) (hforced : c.forceReload) :
    kept (calls ++ [c]) = c.load.toOption.or (kept calls) := by
  have hlast : (calls ++ [c]).filter (fun c => c.libPath = none ∧ c.forceReload) =
      calls.filter (fun c => c.libPath = none ∧ c.forceReload) ++ [c] := by
    simp [h, hforced]
  have hall : (calls ++ [c]).filter (fun c => c.libPath = none) =
      calls.filter (fun c => c.libPath = none) ++ [c] := by
    simp [h]
  rw [kept, hlast, hall, loads_concat, loads_concat, kept]
  cases c.load.toOption with
  | none => simp
  | some capi => simp

lemma kept_shared {calls : List Call} {c : Call} (h : c.libPath = none) (hforced : ¬ c.forceReload) :
    kept (calls ++ [c]) = (kept calls).or c.load.toOption := by
  have hlast : (calls ++ [c]).filter (fun c => c.libPath = none ∧ c.forceReload) =
      calls.filter (fun c => c.libPath = none ∧ c.forceReload) := by
    simp [hforced]
  have hall : (calls ++ [c]).filter (fun c => c.libPath = none) =
      calls.filter (fun c => c.libPath = none) ++ [c] := by
    simp [h]
  rw [kept, hlast, hall, loads_concat, kept, Option.or_assoc]
  congr 1
  cases loads (calls.filter fun c => c.libPath = none) with
  | nil => cases c.load.toOption <;> rfl
  | cons capi rest => rfl

/-- One call keeps to the history. -/
lemma getCapi_kept (past : List Call) (c : Call) :
    getCapi (kept past) c = (answered past c, kept (past ++ [c])) := by
  by_cases hpath : c.libPath = none
  · by_cases hforced : c.forceReload
    · rw [kept_forced hpath hforced, answered, if_neg (by simp [hforced]), getCapi,
        if_neg (by simp [hforced])]
      cases c.load <;> simp [hpath, Except.toOption]
    · rw [kept_shared hpath hforced, answered, if_pos ⟨hpath, hforced⟩, getCapi,
        if_pos ⟨hpath, hforced⟩]
      cases kept past with
      | some capi => rfl
      | none => cases c.load <;> simp [hpath, Except.toOption]
  · rw [kept_path hpath, answered, if_neg (fun h => hpath h.1), getCapi, if_neg (fun h => hpath h.1)]
    cases c.load <;> simp [hpath]

lemma getCapis_kept (past calls : List Call) : getCapis (kept past) calls =
    (calls.mapIdx fun i c => answered (past ++ calls.take i) c, kept (past ++ calls)) := by
  induction calls generalizing past with
  | nil => simp [getCapis]
  | cons c calls ih =>
      rw [getCapis, getCapi_kept, ih (past ++ [c]), List.mapIdx_cons]
      simp

/-- What is answered was loaded by one of the calls. -/
lemma mem_loads_of_answered {past : List Call} {c : Call} {capi : WfbRsCapi}
    (h : answered past c = .ok capi) : capi ∈ loads (past ++ [c]) := by
  have hload : ∀ c' ∈ past ++ [c], c'.load = .ok capi → capi ∈ loads (past ++ [c]) := by
    intro c' hc' hok
    exact List.mem_filterMap.mpr ⟨c', hc', by rw [hok]; rfl⟩
  have hsub : ∀ keep : Call → Bool, ∀ capi' ∈ loads (past.filter keep), capi' ∈ loads past := by
    intro keep capi' hmem
    obtain ⟨c', hc', hok⟩ := List.mem_filterMap.mp hmem
    exact List.mem_filterMap.mpr ⟨c', (List.mem_filter.mp hc').1, hok⟩
  rw [answered] at h
  split at h
  · split at h
    · rename_i capi' hkept
      obtain rfl := Except.ok.inj h
      rw [loads_concat]
      refine List.mem_append_left _ ?_
      rcases Option.or_eq_some_iff.mp hkept with hlast | ⟨-, hfirst⟩
      · exact hsub _ _ (List.mem_of_getLast? hlast)
      · exact hsub _ _ (List.mem_of_head? hfirst)
    · exact hload c (by simp) h
  · exact hload c (by simp) h

/-- **The library behind the package.** Of any calls of `get_capi`, in any surroundings, those with
a path and those that are forced load anew; the others are answered with what is kept: what the last
call without a path has loaded that was forced to, or else the first one.  A call that fails changes
nothing.  Every library that is handed out was found at the first place that names one, has every
function of the interface, and has the version of the package. -/
theorem getCapis_history (calls : List Call) :
    (getCapis none calls).1 = (calls.mapIdx fun i c => answered (calls.take i) c) ∧
    (getCapis none calls).2 = kept calls ∧
    ∀ capi, .ok capi ∈ (getCapis none calls).1 → ∃ c ∈ calls,
      Finds c.surroundings c.libPath capi.source ∧
        c.surroundings.cdll capi.source = .ok capi.lib ∧
        (∀ symbol ∈ wired, symbol ∈ capi.lib.symbols) ∧ capi.lib.abiVersion = 1 ∧
        capi.abiVersion = 1 := by
  have hall := getCapis_kept [] calls
  rw [show kept [] = none from rfl] at hall
  refine ⟨by rw [hall]; rfl, by rw [hall]; rfl, fun capi hcapi => ?_⟩
  rw [hall] at hcapi
  obtain ⟨i, hi, hanswer⟩ := List.mem_mapIdx.mp hcapi
  obtain ⟨c, hc, hload⟩ := List.mem_filterMap.mp (mem_loads_of_answered hanswer)
  have hmem : c ∈ calls := by
    rcases List.mem_append.mp hc with hc | hc
    · exact List.mem_of_mem_take hc
    · exact List.mem_singleton.mp hc ▸ List.getElem_mem hi
  refine ⟨c, hmem, loadCapi_eq_ok.mp ?_⟩
  cases hc' : c.load with
  | error e => simp [hc', Except.toOption] at hload
  | ok capi' =>
      obtain rfl : capi' = capi := by simpa [hc', Except.toOption] using hload
      exact hc'

end Loader

end Python

end WfbRs
