import RtThread.Mem.SmallMem
import RtThread.Lib.Tiling

namespace RtThread.Mem

open RtThread.Lib ByteMemory

namespace MemConfig

variable (cfg : MemConfig)

theorem alignBits_le_word : cfg.alignBits ≤ 32 := Nat.le_trans cfg.alignBits_le (by decide)

theorem alignSize_le : cfg.alignSize ≤ 2 ^ 30 :=
  Nat.pow_le_pow_right (by decide) cfg.alignBits_le

theorem sizeofHeapMem_le : cfg.sizeofHeapMem ≤ cfg.sizeofStructMem := by
  have halign := cfg.alignSize_le
  refine le_rtAlign cfg.alignBits_le_word ?_
  rw [sizeofHeapMem]
  rw [alignSize] at halign
  split <;> omega

theorem twelve_le : 12 ≤ cfg.sizeofStructMem := by
  have hle := cfg.sizeofHeapMem_le
  rw [sizeofHeapMem] at hle
  split at hle <;> omega

theorem sizeofStructMem_mod : cfg.sizeofStructMem % cfg.alignSize = 0 :=
  rtAlign_mod _ cfg.alignBits_le_word

theorem minSizeAligned_mod : cfg.minSizeAligned % cfg.alignSize = 0 :=
  rtAlign_mod _ cfg.alignBits_le_word

end MemConfig

structure Header where
  magic : Nat
  used : Nat
  next : Nat
  prev : Nat
  deriving DecidableEq

def headerOf (heap : ByteMemory) (mem : Nat) : Header where
  magic := magicOf heap mem
  used := usedOf heap mem
  next := nextOf heap mem
  prev := prevOf heap mem

section Fields

variable {heap heap' : ByteMemory} {mem other value i : Nat}

theorem headerOf_congr (hsame : ∀ i, mem ≤ i → i < mem + 12 → heap' i = heap i) :
    headerOf heap' mem = headerOf heap mem := by
  simp only [headerOf, magicOf, usedOf, nextOf, prevOf, Header.mk.injEq]
  refine ⟨?_, ?_, ?_, ?_⟩ <;>
  · apply readWord_congr
    intro i hle hlt
    exact hsame i (by omega) (by omega)

theorem setMagic_outside (hi : i < mem ∨ mem + 12 ≤ i) : setMagic heap mem value i = heap i :=
  writeWord_outside (by omega)

theorem setUsed_outside (hi : i < mem ∨ mem + 12 ≤ i) : setUsed heap mem value i = heap i :=
  writeWord_outside (by omega)

theorem setNext_outside (hi : i < mem ∨ mem + 12 ≤ i) : setNext heap mem value i = heap i :=
  writeWord_outside (by omega)

theorem setPrev_outside (hi : i < mem ∨ mem + 12 ≤ i) : setPrev heap mem value i = heap i :=
  writeWord_outside (by omega)

theorem headerOf_setMagic (hvalue : value < 2 ^ 16) :
    headerOf (setMagic heap mem value) mem = { headerOf heap mem with magic := value } := by
  simp only [headerOf, magicOf, usedOf, nextOf, prevOf, setMagic, Header.mk.injEq]
  refine ⟨readWord_writeWord hvalue, ?_, ?_, ?_⟩ <;>
    exact readWord_writeWord_apart (by omega)

theorem headerOf_setUsed (hvalue : value < 2 ^ 16) :
    headerOf (setUsed heap mem value) mem = { headerOf heap mem with used := value } := by
  simp only [headerOf, magicOf, usedOf, nextOf, prevOf, setUsed, Header.mk.injEq]
  refine ⟨?_, readWord_writeWord hvalue, ?_, ?_⟩ <;>
    exact readWord_writeWord_apart (by omega)

theorem headerOf_setNext (hvalue : value < 2 ^ 32) :
    headerOf (setNext heap mem value) mem = { headerOf heap mem with next := value } := by
  simp only [headerOf, magicOf, usedOf, nextOf, prevOf, setNext, Header.mk.injEq]
  refine ⟨?_, ?_, readWord_writeWord hvalue, ?_⟩ <;>
    exact readWord_writeWord_apart (by omega)

theorem headerOf_setPrev (hvalue : value < 2 ^ 32) :
    headerOf (setPrev heap mem value) mem = { headerOf heap mem with prev := value } := by
  simp only [headerOf, magicOf, usedOf, nextOf, prevOf, setPrev, Header.mk.injEq]
  refine ⟨?_, ?_, ?_, readWord_writeWord hvalue⟩ <;>
    exact readWord_writeWord_apart (by omega)

section

variable (hapart : mem + 12 ≤ other ∨ other + 12 ≤ mem)
include hapart

theorem headerOf_setMagic_apart : headerOf (setMagic heap mem value) other = headerOf heap other :=
  headerOf_congr fun i _ _ => setMagic_outside (by omega)

theorem headerOf_setUsed_apart : headerOf (setUsed heap mem value) other = headerOf heap other :=
  headerOf_congr fun i _ _ => setUsed_outside (by omega)

theorem headerOf_setNext_apart : headerOf (setNext heap mem value) other = headerOf heap other :=
  headerOf_congr fun i _ _ => setNext_outside (by omega)

theorem headerOf_setPrev_apart : headerOf (setPrev heap mem value) other = headerOf heap other :=
  headerOf_congr fun i _ _ => setPrev_outside (by omega)

end

theorem length_fourChars (name : List UInt8) : (fourChars name).length = 4 := by
  simp [fourChars]

variable {cfg : MemConfig} {name : List UInt8}

theorem rtMemSetname_outside (hi : i < mem + 12 ∨ mem + cfg.sizeofStructMem ≤ i) :
    rtMemSetname cfg mem name heap i = heap i := by
  have hsize := cfg.sizeofHeapMem_le
  simp only [rtMemSetname]
  split
  next htrace =>
    rw [MemConfig.sizeofHeapMem, if_pos htrace] at hsize
    apply writeBytes_outside
    rw [length_fourChars]
    omega
  · rfl

theorem headerOf_rtMemSetname_apart
    (hapart : mem + cfg.sizeofStructMem ≤ other ∨ other + 12 ≤ mem) :
    headerOf (rtMemSetname cfg mem name heap) other = headerOf heap other :=
  headerOf_congr fun i _ _ => rtMemSetname_outside (by omega)

theorem headerOf_rtMemSetname : headerOf (rtMemSetname cfg mem name heap) mem = headerOf heap mem :=
  headerOf_congr fun _ _ hlt => rtMemSetname_outside (.inl hlt)

end Fields

/-- Where the last of the blocks starts, `prev` if there is none. -/
def lastStart (prev : Nat) : List Tile → Nat
  | [] => prev
  | tile :: rest => lastStart tile.start rest

/-- Each block has its header; `prev` is where the block before the first starts. -/
def Represents (heap : ByteMemory) : Nat → List Tile → Prop
  | _, [] => True
  | prev, tile :: rest =>
    headerOf heap tile.start = ⟨heapMagic, tile.used.toNat, tile.stop, prev⟩ ∧
      Represents heap tile.start rest

section Represents

variable {heap heap' : ByteMemory} {len a e prev value : Nat} {tile : Tile}
  {tiles pre post : List Tile}

theorem lastStart_concat : lastStart prev (pre ++ [tile]) = tile.start := by
  induction pre generalizing prev with
  | nil => rfl
  | cons head rest ih => exact ih

theorem represents_append : Represents heap prev (pre ++ post) ↔
    Represents heap prev pre ∧ Represents heap (lastStart prev pre) post := by
  induction pre generalizing prev with
  | nil => simp [Represents, lastStart]
  | cons head rest ih => simp only [List.cons_append, Represents, lastStart, ih, and_assoc]

theorem Represents.frame (hheaders : Represents heap prev tiles)
    (htiles : Tiles len a tiles e) (hlen : 12 ≤ len)
    (hsame : ∀ i, a ≤ i → i < e → heap' i = heap i) : Represents heap' prev tiles := by
  induction tiles generalizing prev a with
  | nil => trivial
  | cons head rest ih =>
    obtain ⟨rfl, hfit, hrest⟩ := htiles
    have hle := hrest.le
    refine ⟨?_, ih hheaders.2 hrest (fun i hi => hsame i (by omega))⟩
    rw [headerOf_congr fun i hi hlt => hsame i hi (by omega)]
    exact hheaders.1

theorem Represents.setPrev (hheaders : Represents heap prev tiles)
    (htiles : Tiles len a tiles e) (hlen : 12 ≤ len) (hvalue : value < 2 ^ 32) :
    Represents (setPrev heap a value) value tiles := by
  cases tiles with
  | nil => trivial
  | cons head rest =>
    obtain ⟨rfl, hfit, hrest⟩ := htiles
    constructor
    · rw [headerOf_setPrev hvalue, hheaders.1]
    · refine hheaders.2.frame hrest hlen (fun i hi _ => ?_)
      exact setPrev_outside (by omega)

end Represents

def endOf (heap : ByteMemory) (heapEnd : Nat) : Header :=
  { headerOf heap heapEnd with prev := 0 }

structure Image (cfg : MemConfig) (heap : ByteMemory) (heapEnd : Nat)
    (tiles : List Tile) : Prop where
  tiling : Tiles cfg.sizeofStructMem 0 tiles heapEnd
  headers : Represents heap 0 tiles
  ending : endOf heap heapEnd = ⟨heapMagic, 1, heapEnd, 0⟩
  aligned : ∀ tile ∈ tiles, tile.stop % cfg.alignSize = 0
  small : heapEnd < 2 ^ 32

def Kept (cfg : MemConfig) (heap heap' : ByteMemory) (tile : Tile) : Prop :=
  ∀ i, tile.start + cfg.sizeofStructMem ≤ i → i < tile.stop → heap' i = heap i

theorem Kept.trans {cfg : MemConfig} {heap heap' heap'' : ByteMemory} {tile : Tile}
    (hfirst : Kept cfg heap heap' tile) (hsecond : Kept cfg heap' heap'' tile) :
    Kept cfg heap heap'' tile :=
  fun i hle hlt => (hsecond i hle hlt).trans (hfirst i hle hlt)

theorem Kept.refl (cfg : MemConfig) (heap : ByteMemory) (tile : Tile) :
    Kept cfg heap heap tile := fun _ _ _ => rfl

namespace Image

variable {cfg : MemConfig} {heap heap' : ByteMemory} {heapEnd : Nat} {x y : Tile}
  {tiles pre post : List Tile}

section

variable (himage : Image cfg heap heapEnd (pre ++ x :: post))
include himage

theorem header : headerOf heap x.start = ⟨heapMagic, x.used.toNat, x.stop, lastStart 0 pre⟩ :=
  (represents_append.mp himage.headers).2.1

theorem magicOf_eq : magicOf heap x.start = heapMagic := congrArg Header.magic himage.header

theorem usedOf_eq : usedOf heap x.start = x.used.toNat := congrArg Header.used himage.header

theorem nextOf_eq : nextOf heap x.start = x.stop := congrArg Header.next himage.header

theorem prevOf_eq : prevOf heap x.start = lastStart 0 pre := congrArg Header.prev himage.header

theorem stop_le : x.start + cfg.sizeofStructMem ≤ x.stop ∧ x.stop ≤ heapEnd := by
  have hbounds := himage.tiling.bounds (List.mem_append_right pre List.mem_cons_self)
  exact ⟨hbounds.2.1, hbounds.2.2⟩

theorem post_cases : (post = [] ∧ x.stop = heapEnd) ∨ x.stop + cfg.sizeofStructMem ≤ heapEnd := by
  obtain ⟨-, -, hpost⟩ := Tiles.middle_iff.mp himage.tiling
  cases post with
  | nil => exact .inl ⟨rfl, hpost⟩
  | cons next rest =>
    have hle := hpost.2.2.le
    have hlen := hpost.2.1
    exact .inr (by omega)

end

theorem endOf_congr (hsame : headerOf heap' heapEnd = headerOf heap heapEnd) :
    endOf heap' heapEnd = endOf heap heapEnd := by
  rw [endOf, endOf, hsame]

theorem endOf_setPrev {mem value : Nat} (hvalue : value < 2 ^ 32)
    (hcases : mem = heapEnd ∨ mem + 12 ≤ heapEnd) :
    endOf (setPrev heap mem value) heapEnd = endOf heap heapEnd := by
  rcases hcases with rfl | hle
  · rw [endOf, headerOf_setPrev hvalue, endOf]
  · exact endOf_congr (headerOf_setPrev_apart (.inl hle))

theorem usedOf_end (himage : Image cfg heap heapEnd tiles) : usedOf heap heapEnd = 1 :=
  congrArg Header.used himage.ending

theorem nextOf_end (himage : Image cfg heap heapEnd tiles) : nextOf heap heapEnd = heapEnd :=
  congrArg Header.next himage.ending

theorem merge (himage : Image cfg heap heapEnd (pre ++ x :: y :: post)) :
    Image cfg (setPrev (setNext heap x.start y.stop) y.stop x.start) heapEnd
        (pre ++ ⟨x.start, y.stop, x.used⟩ :: post) ∧
      ∀ tile ∈ pre ++ ⟨x.start, y.stop, x.used⟩ :: post,
        Kept cfg heap (setPrev (setNext heap x.start y.stop) y.stop x.start) tile := by
  have hlen := cfg.twelve_le
  have hsmall := himage.small
  have hheader := himage.header
  obtain ⟨hpre, hx, hstart, hy, hpost⟩ := Tiles.middle_iff.mp himage.tiling
  have hle := hpost.le
  have hcases : y.stop = heapEnd ∨ y.stop + 12 ≤ heapEnd := by
    have himage' : Image cfg heap heapEnd ((pre ++ [x]) ++ y :: post) := by simpa using himage
    rcases himage'.post_cases with ⟨-, heq⟩ | hroom
    · exact .inl heq
    · exact .inr (by omega)
  have hsame : ∀ i, (i < x.start ∨ x.start + 12 ≤ i) → (i < y.stop ∨ y.stop + 12 ≤ i) →
      setPrev (setNext heap x.start y.stop) y.stop x.start i = heap i := by
    intro i hi hj
    rw [setPrev_outside hj, setNext_outside hi]
  obtain ⟨hheadPre, -, -, hheadPost⟩ := represents_append.mp himage.headers
  refine ⟨⟨?_, ?_, ?_, ?_, hsmall⟩, ?_⟩
  · exact Tiles.middle_iff.mpr ⟨hpre, by simp only; omega, hpost⟩
  · rw [represents_append]
    refine ⟨?_, ?_, ?_⟩
    · exact hheadPre.frame hpre hlen fun i _ hi => hsame i (by omega) (by omega)
    · rw [headerOf_setPrev_apart (by simp only; omega), headerOf_setNext (by omega), hheader]
    · have hframe : Represents (setNext heap x.start y.stop) y.start post :=
        hheadPost.frame hpost hlen fun i hi _ => setNext_outside (by omega)
      exact hframe.setPrev hpost hlen (by omega)
  · rw [endOf_setPrev (by omega) hcases, endOf_congr (headerOf_setNext_apart (by omega))]
    exact himage.ending
  · intro tile htile
    rw [List.mem_append, List.mem_cons] at htile
    rcases htile with hin | rfl | hin
    · exact himage.aligned tile (List.mem_append_left _ hin)
    · exact himage.aligned y (by simp)
    · exact himage.aligned tile (by simp [hin])
  · intro tile htile i hi hlt
    rw [List.mem_append, List.mem_cons] at htile
    rcases htile with hin | rfl | hin
    · have hbounds := hpre.bounds hin
      exact hsame i (by omega) (by omega)
    · simp only at hi hlt
      exact hsame i (by omega) (by omega)
    · have hbounds := hpost.bounds hin
      exact hsame i (by omega) (by omega)

theorem mark (himage : Image cfg heap heapEnd (pre ++ x :: post)) {used : Bool}
    (hheader : headerOf heap' x.start = ⟨heapMagic, used.toNat, x.stop, lastStart 0 pre⟩)
    (hsame : ∀ i, (i < x.start ∨ x.start + cfg.sizeofStructMem ≤ i) → heap' i = heap i) :
    Image cfg heap' heapEnd (pre ++ ⟨x.start, x.stop, used⟩ :: post) ∧
      ∀ tile ∈ pre ++ x :: post, Kept cfg heap heap' tile := by
  have hlen := cfg.twelve_le
  obtain ⟨hpre, hx, hpost⟩ := Tiles.middle_iff.mp himage.tiling
  obtain ⟨hheadPre, -, hheadPost⟩ := represents_append.mp himage.headers
  have hle := hpost.le
  refine ⟨⟨?_, ?_, ?_, ?_, himage.small⟩, ?_⟩
  · exact Tiles.middle_iff.mpr ⟨hpre, hx, hpost⟩
  · rw [represents_append]
    refine ⟨?_, hheader, ?_⟩
    · exact hheadPre.frame hpre hlen fun i _ hi => hsame i (by omega)
    · exact hheadPost.frame hpost hlen fun i hi _ => hsame i (by omega)
  · rw [endOf_congr (headerOf_congr fun i hi _ => hsame i (by omega))]
    exact himage.ending
  · intro tile htile
    rw [List.mem_append, List.mem_cons] at htile
    rcases htile with hin | rfl | hin
    · exact himage.aligned tile (List.mem_append_left _ hin)
    · exact himage.aligned x (by simp)
    · exact himage.aligned tile (by simp [hin])
  · intro tile htile i hi hlt
    rw [List.mem_append, List.mem_cons] at htile
    rcases htile with hin | rfl | hin
    · have hbounds := hpre.bounds hin
      exact hsame i (by omega)
    · exact hsame i (by omega)
    · have hbounds := hpost.bounds hin
      exact hsame i (by omega)

theorem split (himage : Image cfg heap heapEnd (pre ++ x :: post)) {mid memSizeAligned : Nat}
    {used : Bool} (hleft : x.start + cfg.sizeofStructMem ≤ mid)
    (hright : mid + cfg.sizeofStructMem ≤ x.stop) (haligned : mid % cfg.alignSize = 0)
    (hend : heapEnd = memSizeAligned + cfg.sizeofStructMem)
    (hfirst : headerOf heap' x.start = ⟨heapMagic, used.toNat, mid, lastStart 0 pre⟩)
    (hsecond : headerOf heap' mid = ⟨heapMagic, 0, x.stop, x.start⟩)
    (hsame : ∀ i, (i < x.start ∨ x.start + cfg.sizeofStructMem ≤ i) →
      (i < mid ∨ mid + cfg.sizeofStructMem ≤ i) → heap' i = heap i) :
    Image cfg (relinkNext cfg memSizeAligned mid heap') heapEnd
        (pre ++ ⟨x.start, mid, used⟩ :: ⟨mid, x.stop, false⟩ :: post) ∧
      ∀ tile ∈ pre ++ ⟨x.start, mid, used⟩ :: ⟨mid, x.stop, false⟩ :: post,
        Kept cfg heap (relinkNext cfg memSizeAligned mid heap') tile := by
  have hlen := cfg.twelve_le
  have hsmall := himage.small
  obtain ⟨hpre, hx, hpost⟩ := Tiles.middle_iff.mp himage.tiling
  obtain ⟨hheadPre, -, hheadPost⟩ := represents_append.mp himage.headers
  have hle := hpost.le
  have hnext : nextOf heap' mid = x.stop := congrArg Header.next hsecond
  have hcases := himage.post_cases
  have hrelink : relinkNext cfg memSizeAligned mid heap' =
      if x.stop = heapEnd then heap' else setPrev heap' x.stop mid := by
    rw [relinkNext, hnext, ← hend]
    split <;> simp_all
  have hout : ∀ i, (i < x.start ∨ x.start + cfg.sizeofStructMem ≤ i) →
      (i < mid ∨ mid + cfg.sizeofStructMem ≤ i) → (i < x.stop ∨ x.stop + 12 ≤ i) →
      relinkNext cfg memSizeAligned mid heap' i = heap i := by
    intro i hi hj hk
    rw [hrelink]
    split
    · exact hsame i hi hj
    · rw [setPrev_outside hk]
      exact hsame i hi hj
  have hhead : ∀ p, p + 12 ≤ x.stop →
      headerOf (relinkNext cfg memSizeAligned mid heap') p = headerOf heap' p := by
    intro p hp
    rw [hrelink]
    split
    · rfl
    · exact headerOf_setPrev_apart (.inr hp)
  refine ⟨⟨?_, ?_, ?_, ?_, hsmall⟩, ?_⟩
  · exact Tiles.middle_iff.mpr ⟨hpre, hleft, rfl, hright, hpost⟩
  · rw [represents_append]
    refine ⟨?_, ?_, ?_, ?_⟩
    · exact hheadPre.frame hpre hlen fun i _ hi => hout i (by omega) (by omega) (by omega)
    · rw [hhead _ (by simp only; omega)]
      exact hfirst
    · rw [hhead _ (by simp only; omega)]
      exact hsecond
    · have hframe : Represents heap' x.start post :=
        hheadPost.frame hpost hlen fun i hi _ => hsame i (by omega) (by omega)
      rw [hrelink]
      split
      next heq =>
        obtain ⟨hnil, -⟩ := hcases.resolve_right (by omega)
        rw [hnil]
        trivial
      · exact hframe.setPrev hpost hlen (by omega)
  · have hkeep : endOf (relinkNext cfg memSizeAligned mid heap') heapEnd = endOf heap' heapEnd := by
      rw [hrelink]
      split
      · rfl
      next hne =>
        refine endOf_setPrev (by omega) (.inr ?_)
        have hroom := hcases.resolve_left (fun h => hne h.2)
        omega
    rw [hkeep, endOf_congr (headerOf_congr fun i hi _ => hsame i (by omega) (by omega))]
    exact himage.ending
  · intro tile htile
    rw [List.mem_append, List.mem_cons, List.mem_cons] at htile
    rcases htile with hin | rfl | rfl | hin
    · exact himage.aligned tile (List.mem_append_left _ hin)
    · exact haligned
    · exact himage.aligned x (by simp)
    · exact himage.aligned tile (by simp [hin])
  · intro tile htile i hi hlt
    rw [List.mem_append, List.mem_cons, List.mem_cons] at htile
    rcases htile with hin | rfl | rfl | hin
    · have hbounds := hpre.bounds hin
      exact hout i (by omega) (by omega) (by omega)
    · simp only at hi hlt
      exact hout i (by omega) (by omega) (by omega)
    · simp only at hi hlt
      exact hout i (by omega) (by omega) (by omega)
    · have hbounds := hpost.bounds hin
      exact hout i (by omega) (by omega) (by omega)

theorem store (himage : Image cfg heap heapEnd (pre ++ x :: post))
    (hsame : ∀ i, (i < x.start + cfg.sizeofStructMem ∨ x.stop ≤ i) → heap' i = heap i) :
    Image cfg heap' heapEnd (pre ++ x :: post) ∧
      ∀ tile ∈ pre ++ x :: post, tile ≠ x → Kept cfg heap heap' tile := by
  have hlen := cfg.twelve_le
  obtain ⟨hpre, hx, hpost⟩ := Tiles.middle_iff.mp himage.tiling
  obtain ⟨hheadPre, hheader, hheadPost⟩ := represents_append.mp himage.headers
  have hle := hpost.le
  refine ⟨⟨himage.tiling, ?_, ?_, himage.aligned, himage.small⟩, ?_⟩
  · rw [represents_append]
    refine ⟨?_, ?_, ?_⟩
    · exact hheadPre.frame hpre hlen fun i _ hi => hsame i (by omega)
    · rw [headerOf_congr fun i _ hi => hsame i (by omega)]
      exact hheader
    · exact hheadPost.frame hpost hlen fun i hi _ => hsame i (by omega)
  · rw [endOf_congr (headerOf_congr fun i hi _ => hsame i (by omega))]
    exact himage.ending
  · intro tile htile hne i hi hlt
    rw [List.mem_append, List.mem_cons] at htile
    rcases htile with hin | rfl | hin
    · have hbounds := hpre.bounds hin
      exact hsame i (by omega)
    · exact absurd rfl hne
    · have hbounds := hpost.bounds hin
      exact hsame i (by omega)

end Image

end RtThread.Mem
