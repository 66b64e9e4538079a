import Mathlib.Algebra.Order.BigOperators.Group.List
import Transform.Lib.Bytes
import Transform.Lib.JsMap
import Transform.Lib.JsString

/-!
# Web.FileCaches — the bounded caches of previews and of picked files

`createPreviewCache` and `createFileCache` make one cache for two kinds of values.  A read sets its entry anew, so that the
order of the map is the order of use; after a set the first entries go while there are too many, and then while more than one
has too many bytes.  Every history leaves the entries that the reference of `Lib.Lru` leaves (`caches_keep_recent`).
-/

namespace Transform.Web

open Lib

/-! ## The cache -/

section Cache

/-- What the functions of a cache share. -/
structure BoundedCache (V : Type) where
  maxEntries : JsNumber
  maxBytes : JsNumber
  entries : JsMap JsString V

namespace BoundedCache

variable {V : Type} (bytesOf : V → ℕ) (cache : BoundedCache V)

/-- `bytes()` -/
def bytes (entries : List (JsString × V)) : ℕ := (entries.map fun e => bytesOf e.2).sum

/-- The first loop of `trim`.  On an empty map it returns from `trim`, where the second loop has nothing to do. -/
def trimEntries : BoundedCache V :=
  { cache with
    entries := cache.entries.evictWhile (fun m => cache.maxEntries.exceededBy m.size) cache.entries.size }

/-- The second loop of `trim`. -/
def trimBytes : BoundedCache V :=
  { cache with
    entries := cache.entries.evictWhile
      (fun m => 1 < m.size && cache.maxBytes.exceededBy (bytes bytesOf m.entries)) cache.entries.size }

def trim : BoundedCache V := cache.trimEntries.trimBytes bytesOf

/-- The entry of a key deleted and set. -/
def reinsert (key : JsString) (value : V) : BoundedCache V :=
  { cache with entries := (cache.entries.delete key).set key value }

def set (key : JsString) (value : V) : BoundedCache V := (cache.reinsert key value).trim bytesOf

def get (key : JsString) : BoundedCache V × Option V :=
  match cache.entries.get key with
  | none => (cache, none)
  | some value => (cache.reinsert key value, some value)

def drop (key : JsString) : BoundedCache V := { cache with entries := cache.entries.delete key }

def clear : BoundedCache V := { cache with entries := .empty }

def call : CacheOp JsString V → BoundedCache V
  | .set key value => cache.set bytesOf key value
  | .get key => (cache.get key).1
  | .drop key => cache.drop key
  | .clear => cache.clear

end BoundedCache

end Cache

/-! ## The two caches -/

section Caches

structure Blob where
  content : Bytes
  type : JsString
  deriving DecidableEq

def Blob.size (blob : Blob) : ℕ := blob.content.length

structure CachedPreview where
  blob : Blob
  fileName : JsString
  deriving DecidableEq

/-- `Partial<PreviewCacheLimits>` -/
structure PreviewCacheLimits where
  maxEntries : Option JsNumber := none
  maxBytes : Option JsNumber := none

namespace PreviewCache

/-- `DEFAULT_PREVIEW_CACHE_LIMITS` -/
def defaultMaxEntries : JsNumber := .finite 6

def defaultMaxBytes : JsNumber := .finite (96 * 1024 * 1024)

def bytesOf (entry : CachedPreview) : ℕ := entry.blob.size

/-- `createPreviewCache` -/
def create (limits : PreviewCacheLimits) : BoundedCache CachedPreview where
  maxEntries := limits.maxEntries.getD defaultMaxEntries
  maxBytes := limits.maxBytes.getD defaultMaxBytes
  entries := .empty

variable (cache : BoundedCache CachedPreview)

def set (key : JsString) (entry : CachedPreview) : BoundedCache CachedPreview := cache.set bytesOf key entry

def get (key : JsString) : BoundedCache CachedPreview × Option CachedPreview := cache.get key

def drop (key : JsString) : BoundedCache CachedPreview := cache.drop key

def clear : BoundedCache CachedPreview := cache.clear

def call : CacheOp JsString CachedPreview → BoundedCache CachedPreview
  | .set key entry => set cache key entry
  | .get key => (get cache key).1
  | .drop key => drop cache key
  | .clear => clear cache

/-- The cache after a history of calls. -/
def run (limits : PreviewCacheLimits) (ops : List (CacheOp JsString CachedPreview)) : BoundedCache CachedPreview :=
  ops.foldl call (create limits)

end PreviewCache

structure File extends Blob where
  name : JsString
  lastModified : ℤ
  deriving DecidableEq

structure CachedUpload where
  file : File
  source : JsString
  target : JsString
  deriving DecidableEq

/-- `Partial<FileCacheLimits>` -/
structure FileCacheLimits where
  maxFiles : Option JsNumber := none
  maxBytes : Option JsNumber := none

namespace FileCache

/-- `DEFAULT_FILE_CACHE_LIMITS` -/
def defaultMaxFiles : JsNumber := .finite 8

def defaultMaxBytes : JsNumber := .finite (512 * 1024 * 1024)

def bytesOf (upload : CachedUpload) : ℕ := upload.file.size

/-- `createFileCache` -/
def create (limits : FileCacheLimits) : BoundedCache CachedUpload where
  maxEntries := limits.maxFiles.getD defaultMaxFiles
  maxBytes := limits.maxBytes.getD defaultMaxBytes
  entries := .empty

variable (cache : BoundedCache CachedUpload)

def cacheFileForJob (jobId : JsString) (upload : CachedUpload) : BoundedCache CachedUpload := cache.set bytesOf jobId upload

def getCachedFile (jobId : JsString) : BoundedCache CachedUpload × Option CachedUpload := cache.get jobId

def dropCachedFile (jobId : JsString) : BoundedCache CachedUpload := cache.drop jobId

def clear : BoundedCache CachedUpload := cache.clear

def call : CacheOp JsString CachedUpload → BoundedCache CachedUpload
  | .set jobId upload => cacheFileForJob cache jobId upload
  | .get jobId => (getCachedFile cache jobId).1
  | .drop jobId => dropCachedFile cache jobId
  | .clear => clear cache

/-- The cache after a history of calls. -/
def run (limits : FileCacheLimits) (ops : List (CacheOp JsString CachedUpload)) : BoundedCache CachedUpload :=
  ops.foldl call (create limits)

end FileCache

end Caches

/-! ## The reference -/

section Reference

variable {V : Type}

/-- What may be left of a set: no more entries than the one limit, and of more than one no more bytes than the other. -/
def allowed (bytesOf : V → ℕ) (maxEntries maxBytes : JsNumber) (entries : List (JsString × V)) : Bool :=
  !maxEntries.exceededBy entries.length &&
    !(1 < entries.length && maxBytes.exceededBy (BoundedCache.bytes bytesOf entries))

/-- A cache in all its histories: what it holds and what it answers then. -/
structure KeepsRecent (bytesOf : V → ℕ) (maxEntries maxBytes : JsNumber) (held : List (CacheOp JsString V) → List (JsString × V))
    (answer : List (CacheOp JsString V) → JsString → Option V) : Prop where
  reference : ∀ ops, held ops = lruRun (allowed bytesOf maxEntries maxBytes) ops
  longest : ∀ ops key value, IsLongestSuffix (fun entries => allowed bytesOf maxEntries maxBytes entries = true)
    (touch (held ops) key value) (held (ops ++ [.set key value]))
  count : ∀ ops, maxEntries.exceededBy (held ops).length = false
  bytes : ∀ ops, maxBytes.exceededBy (BoundedCache.bytes bytesOf (held ops)) = false ∨ (held ops).length ≤ 1
  bytes_set : ∀ ops key value, maxBytes.exceededBy (BoundedCache.bytes bytesOf (held (ops ++ [.set key value]))) = false ∨
    (held (ops ++ [.set key value])).length = 1
  retained : ∀ ops key value, (key, value) ∈ held (ops ++ [.set key value])
  ordered : ∀ ops, (held ops).Pairwise fun e e' => lastUse ops e.1 < lastUse ops e'.1
  evicted : ∀ ops key value, ∀ earlier ∈ held ops, ∀ later ∈ held ops, earlier.1 ≠ key → later.1 ≠ key →
    lastUse ops earlier.1 < lastUse ops later.1 → later ∉ held (ops ++ [.set key value]) →
      earlier ∉ held (ops ++ [.set key value])
  live : ∀ ops key, answer ops key = mapGet (held ops) key
  last : ∀ ops key value, answer ops key = some value → lastSet key ops = some value

end Reference

/-! ## Every history -/

section Run

variable {V : Type} {bytesOf : V → ℕ} {cache : BoundedCache V} {maxEntries maxBytes : JsNumber} {ops : List (CacheOp JsString V)}
  {op : CacheOp JsString V} {key : JsString} {value : V}

theorem entries_trim : (cache.trim bytesOf).entries.entries =
    longestSuffix (allowed bytesOf cache.maxEntries cache.maxBytes) cache.entries.entries := by
  have hfirst : cache.trimEntries.entries.entries =
      longestSuffix (fun entries => !cache.maxEntries.exceededBy entries.length) cache.entries.entries :=
    JsMap.entries_evictWhile (fun m => (Bool.not_not _).symm) le_rfl
  have hsecond : (cache.trim bytesOf).entries.entries =
      longestSuffix (fun entries => !(1 < entries.length && cache.maxBytes.exceededBy (BoundedCache.bytes bytesOf entries)))
        cache.trimEntries.entries.entries :=
    JsMap.entries_evictWhile (fun m => (Bool.not_not _).symm) le_rfl
  have hclosed : ∀ (e : JsString × V) (entries : List (JsString × V)),
      (!cache.maxEntries.exceededBy (e :: entries).length) = true → (!cache.maxEntries.exceededBy entries.length) = true := by
    intro e entries h
    rw [Bool.not_eq_true'] at h ⊢
    exact Bool.eq_false_iff.2 fun hover =>
      Bool.eq_false_iff.1 h (JsNumber.exceededBy_mono (Nat.le_succ entries.length) hover)
  rw [hsecond, hfirst, longestSuffix_longestSuffix hclosed]
  rfl

theorem entries_call : (cache.call bytesOf op).entries.entries =
    lruStep (allowed bytesOf cache.maxEntries cache.maxBytes) cache.entries.entries op := by
  cases op with
  | set key value =>
    have htrim : (cache.set bytesOf key value).entries.entries = longestSuffix (allowed bytesOf cache.maxEntries cache.maxBytes)
      (cache.reinsert key value).entries.entries := entries_trim
    rw [BoundedCache.call, htrim, lruStep]
    exact congrArg _ JsMap.entries_delete_set
  | get key =>
    rw [BoundedCache.call, BoundedCache.get, JsMap.get, lruStep]
    cases mapGet cache.entries.entries key with
    | none => rfl
    | some value => exact JsMap.entries_delete_set
  | drop key => rfl
  | clear => rfl

theorem limits_call : (cache.call bytesOf op).maxEntries = cache.maxEntries ∧ (cache.call bytesOf op).maxBytes = cache.maxBytes := by
  cases op with
  | set key value => exact ⟨rfl, rfl⟩
  | get key =>
    rw [BoundedCache.call, BoundedCache.get]
    cases cache.entries.get key <;> exact ⟨rfl, rfl⟩
  | drop key => exact ⟨rfl, rfl⟩
  | clear => exact ⟨rfl, rfl⟩

theorem entries_run (h : cache.entries = .empty) : (ops.foldl (BoundedCache.call bytesOf) cache).entries.entries =
    lruRun (allowed bytesOf cache.maxEntries cache.maxBytes) ops := by
  have hlimits : ∀ ops : List (CacheOp JsString V), (ops.foldl (BoundedCache.call bytesOf) cache).maxEntries = cache.maxEntries ∧
      (ops.foldl (BoundedCache.call bytesOf) cache).maxBytes = cache.maxBytes := by
    intro ops
    induction ops using List.reverseRecOn with
    | nil => exact ⟨rfl, rfl⟩
    | append_singleton ops op ih =>
      rw [List.foldl_append, List.foldl_cons, List.foldl_nil, limits_call.1, limits_call.2]
      exact ih
  induction ops using List.reverseRecOn with
  | nil =>
    rw [List.foldl_nil, h]
    rfl
  | append_singleton ops op ih =>
    rw [List.foldl_append, List.foldl_cons, List.foldl_nil, entries_call, (hlimits ops).1, (hlimits ops).2, ih, lruRun_append]

end Run

/-! ## What the reference keeps -/

section Kept

variable {V : Type} {bytesOf : V → ℕ} {maxEntries maxBytes : JsNumber} {entries entries' : List (JsString × V)}

theorem allowed_eq_true_iff : allowed bytesOf maxEntries maxBytes entries = true ↔ maxEntries.exceededBy entries.length = false ∧
    (maxBytes.exceededBy (BoundedCache.bytes bytesOf entries) = false ∨ entries.length ≤ 1) := by
  rw [allowed, Bool.and_eq_true_iff, Bool.not_eq_true', Bool.not_eq_true', Bool.and_eq_false_iff, decide_eq_false_iff_not,
    Nat.not_lt, or_comm (a := entries.length ≤ 1)]

theorem exceededBy_of_atLeast (h : maxEntries.AtLeast 1) {n : ℕ} (hn : n ≤ 1) : maxEntries.exceededBy n = false :=
  Bool.eq_false_iff.2 fun hover =>
    Bool.eq_false_iff.1 (JsNumber.exceededBy_eq_false_iff.2 (.inl h)) (JsNumber.exceededBy_mono hn hover)

/-- One entry may stay alone. -/
theorem allowed_singleton (h : maxEntries.AtLeast 1) (e : JsString × V) : allowed bytesOf maxEntries maxBytes [e] = true :=
  allowed_eq_true_iff.2 ⟨exceededBy_of_atLeast h le_rfl, .inr le_rfl⟩

theorem allowed_nil (h : maxEntries.AtLeast 1) : allowed bytesOf maxEntries maxBytes ([] : List (JsString × V)) = true :=
  allowed_eq_true_iff.2 ⟨exceededBy_of_atLeast h (Nat.zero_le 1), .inr (Nat.zero_le 1)⟩

theorem allowed_perm (hperm : entries'.Perm entries) (h : allowed bytesOf maxEntries maxBytes entries = true) :
    allowed bytesOf maxEntries maxBytes entries' = true := by
  have hbytes : BoundedCache.bytes bytesOf entries' = BoundedCache.bytes bytesOf entries := (hperm.map _).sum_eq
  rw [allowed_eq_true_iff] at h ⊢
  rwa [hperm.length_eq, hbytes]

theorem allowed_sublist (hsub : entries'.Sublist entries) (h : allowed bytesOf maxEntries maxBytes entries = true) :
    allowed bytesOf maxEntries maxBytes entries' = true := by
  have hbytes : BoundedCache.bytes bytesOf entries' ≤ BoundedCache.bytes bytesOf entries :=
    (hsub.map _).sum_le_sum fun _ _ => Nat.zero_le _
  obtain ⟨hcount, hrest⟩ := allowed_eq_true_iff.1 h
  refine allowed_eq_true_iff.2 ⟨?_, ?_⟩
  · exact Bool.eq_false_iff.2 fun hover => Bool.eq_false_iff.1 hcount (JsNumber.exceededBy_mono hsub.length_le hover)
  · rcases hrest with hrest | hrest
    · exact .inl (Bool.eq_false_iff.2 fun hover => Bool.eq_false_iff.1 hrest (JsNumber.exceededBy_mono hbytes hover))
    · exact .inr (hsub.length_le.trans hrest)

theorem isLongestSuffix_set (h : maxEntries.AtLeast 1) (key : JsString) (value : V) :
    IsLongestSuffix (fun l => allowed bytesOf maxEntries maxBytes l = true) (touch entries key value)
      (longestSuffix (allowed bytesOf maxEntries maxBytes) (touch entries key value)) :=
  isLongestSuffix_longestSuffix ⟨[(key, value)], List.suffix_append _ _, allowed_singleton h _⟩

theorem allowed_lruRun (h : maxEntries.AtLeast 1) (ops : List (CacheOp JsString V)) :
    allowed bytesOf maxEntries maxBytes (lruRun (allowed bytesOf maxEntries maxBytes) ops) = true :=
  lruRun_of (allowed_nil h) (fun _ key value => (isLongestSuffix_set h key value).allowed)
    (fun _ _ hperm => allowed_perm hperm) (fun _ _ hsub => allowed_sublist hsub) ops

theorem keepsRecent_of_reference (h : maxEntries.AtLeast 1) {held : List (CacheOp JsString V) → List (JsString × V)}
    {answer : List (CacheOp JsString V) → JsString → Option V}
    (hheld : ∀ ops, held ops = lruRun (allowed bytesOf maxEntries maxBytes) ops)
    (hlive : ∀ ops key, answer ops key = mapGet (held ops) key) :
    KeepsRecent bytesOf maxEntries maxBytes held answer := by
  have hset : ∀ ops key value, IsLongestSuffix (fun entries => allowed bytesOf maxEntries maxBytes entries = true)
      (touch (held ops) key value) (held (ops ++ [.set key value])) := by
    intro ops key value
    rw [hheld, hheld, lruRun_append]
    exact isLongestSuffix_set h key value
  have hretained : ∀ ops key value, (key, value) ∈ held (ops ++ [.set key value]) := by
    intro ops key value
    have hsingle := (hset ops key value).longest [(key, value)] (List.suffix_append _ _) (allowed_singleton h _)
    exact hsingle.subset (List.mem_singleton_self _)
  have hallowed : ∀ ops, maxEntries.exceededBy (held ops).length = false ∧
      (maxBytes.exceededBy (BoundedCache.bytes bytesOf (held ops)) = false ∨ (held ops).length ≤ 1) := by
    intro ops
    rw [hheld]
    exact allowed_eq_true_iff.1 (allowed_lruRun h ops)
  have hrecent : ∀ ops, Recent ops (held ops) := by
    intro ops
    rw [hheld]
    exact recent_lruRun ops
  refine ⟨hheld, hset, fun ops => (hallowed ops).1, fun ops => (hallowed ops).2, ?_, hretained,
    fun ops => (hrecent ops).ordered, ?_, hlive, ?_⟩
  · intro ops key value
    rcases (hallowed (ops ++ [.set key value])).2 with hbytes | hle
    · exact .inl hbytes
    · exact .inr (Nat.le_antisymm hle (List.length_pos_of_mem (hretained ops key value)))
  · intro ops key value earlier _ later hthere hearlier hlater hlt hout
    rw [hheld] at hthere hout ⊢
    exact evicted_of_less_recent hearlier hthere hlater hlt hout
  · intro ops key value hanswer
    rw [hlive] at hanswer
    exact (hrecent ops).live _ (mem_of_mapGet hanswer)

end Kept

/-! ## The two caches in every history -/

section Histories

theorem previewRun_eq (limits : PreviewCacheLimits) (ops : List (CacheOp JsString CachedPreview)) :
    PreviewCache.run limits ops = ops.foldl (BoundedCache.call PreviewCache.bytesOf) (PreviewCache.create limits) := by
  have hcall : PreviewCache.call = BoundedCache.call PreviewCache.bytesOf :=
    funext fun _ => funext fun op => by cases op <;> rfl
  rw [PreviewCache.run, hcall]

theorem fileRun_eq (limits : FileCacheLimits) (ops : List (CacheOp JsString CachedUpload)) :
    FileCache.run limits ops = ops.foldl (BoundedCache.call FileCache.bytesOf) (FileCache.create limits) := by
  have hcall : FileCache.call = BoundedCache.call FileCache.bytesOf :=
    funext fun _ => funext fun op => by cases op <;> rfl
  rw [FileCache.run, hcall]

theorem snd_get {V : Type} (cache : BoundedCache V) (key : JsString) :
    (cache.get key).2 = mapGet cache.entries.entries key := by
  rw [BoundedCache.get, JsMap.get]
  cases mapGet cache.entries.entries key <;> rfl

/-- **Both caches keep what was used most recently**, in every history of calls and for all limits with room for one entry. -/
theorem caches_keep_recent (previews : PreviewCacheLimits) (files : FileCacheLimits)
    (hpreviews : (PreviewCache.create previews).maxEntries.AtLeast 1) (hfiles : (FileCache.create files).maxEntries.AtLeast 1) :
    KeepsRecent PreviewCache.bytesOf (PreviewCache.create previews).maxEntries (PreviewCache.create previews).maxBytes
      (fun ops => (PreviewCache.run previews ops).entries.entries)
      (fun ops key => (PreviewCache.get (PreviewCache.run previews ops) key).2) ∧
    KeepsRecent FileCache.bytesOf (FileCache.create files).maxEntries (FileCache.create files).maxBytes
      (fun ops => (FileCache.run files ops).entries.entries)
      (fun ops key => (FileCache.getCachedFile (FileCache.run files ops) key).2) := by
  constructor
  · refine keepsRecent_of_reference hpreviews (fun ops => ?_) fun ops key => snd_get _ key
    rw [previewRun_eq]
    exact entries_run rfl
  · refine keepsRecent_of_reference hfiles (fun ops => ?_) fun ops key => snd_get _ key
    rw [fileRun_eq]
    exact entries_run rfl

/-- Room for two previews, and for three bytes of them. -/
def smallPreviews : PreviewCacheLimits := { maxEntries := some (.finite 2), maxBytes := some (.finite 3) }

def previewOf (size : ℕ) : CachedPreview := ⟨⟨List.replicate size 0, units "text/plain"⟩, units "notes.txt"⟩

def readBeforeSet : List (CacheOp JsString CachedPreview) :=
  [.set (units "a") (previewOf 1), .set (units "b") (previewOf 1), .get (units "a"), .set (units "c") (previewOf 2)]

theorem caches_keep_recent_smallPreviews :
    (PreviewCache.run smallPreviews readBeforeSet).entries.entries =
      [(units "a", previewOf 1), (units "c", previewOf 2)] ∧
    (PreviewCache.run smallPreviews (readBeforeSet ++ [.set (units "d") (previewOf 4)])).entries.entries =
      [(units "d", previewOf 4)] ∧
    KeepsRecent PreviewCache.bytesOf (.finite 2) (.finite 3)
      (fun ops => (PreviewCache.run smallPreviews ops).entries.entries)
      (fun ops key => (PreviewCache.get (PreviewCache.run smallPreviews ops) key).2) :=
  ⟨by decide, by decide, (caches_keep_recent smallPreviews {} (by decide) (by decide)).1⟩

end Histories

end Transform.Web
