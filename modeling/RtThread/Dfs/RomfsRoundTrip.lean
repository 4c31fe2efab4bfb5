import Mathlib.Data.List.Nodup
import RtThread.Dfs.RomfsImage

namespace RtThread.Dfs.Romfs

open RtThread.Lib

def Name (name : List UInt8) : Prop := name ≠ [] ∧ 0 ∉ name ∧ slash ∉ name

instance : DecidablePred Name := fun name =>
  inferInstanceAs (Decidable (name ≠ [] ∧ 0 ∉ name ∧ slash ∉ name))

/-- The names of a directory are different ones, here and in every directory below. -/
inductive WellNamed : List RomfsItem → Prop
  | intro {items : List RomfsItem} (names : ∀ item ∈ items, Name item.name)
      (distinct : (items.map RomfsItem.name).Nodup)
      (below : ∀ name children, .folder name children ∈ items → WellNamed children) :
      WellNamed items

def resolve : RomfsItem → List (List UInt8) → Option RomfsItem
  | item, [] => some item
  | .file .., _ :: _ => none
  | .folder _ children, name :: names =>
    (children.find? fun child => child.name = name).bind fun child => resolve child names

def pathOf (names : List (List UInt8)) : List UInt8 :=
  if names = [] then [slash] else names.flatMap (slash :: ·)

mutual

/-- The entry at an address is that of an item, with its type, its name and its size, and its data
are the item's. -/
def Denotes (m : MemoryBlock) (a : Nat) : RomfsItem → Prop
  | .file name data => ∃ d, romfsDirentAt m a = some d ∧ checkDirent d = true ∧
      m.string d.name = some name ∧ d.type = romfsDirentFile ∧ d.size = data.length ∧
      m.read d.data d.size = some data
  | .folder name children => ∃ d, romfsDirentAt m a = some d ∧ checkDirent d = true ∧
      m.string d.name = some name ∧ d.type = romfsDirentDir ∧ d.size = children.length ∧
      d.data ≠ 0 ∧ DenotesAll m d.data children

def DenotesAll (m : MemoryBlock) (a : Nat) : List RomfsItem → Prop
  | [] => True
  | child :: rest => Denotes m a child ∧ DenotesAll m (a + binFmtSize) rest

end

section Layout

variable {m : MemoryBlock} {a vLen base : Nat} {d : RomfsDirent} {bytes : List UInt8}

theorem romfsDirentAt_pack (hpack : d.pack = some bytes) (hat : m.At a bytes)
    (halign : a % 4 = 0) : romfsDirentAt m a = some d := by
  unfold RomfsDirent.pack at hpack
  split at hpack
  case isFalse => cases hpack
  next hfits =>
    cases hpack
    have htype := hat.left.left.left
    have hname := hat.left.left.right
    have hdata := hat.left.right
    have hsize := hat.right
    simp only [List.length_append, length_leBytes] at hname hdata hsize
    unfold romfsDirentAt
    rw [htype.word halign hfits.1, Option.bind_some, hname.word (by omega) hfits.2.1,
      Option.bind_some, hdata.word (by omega) hfits.2.2.1, Option.bind_some,
      hsize.word (by omega) hfits.2.2.2, Option.map_some]

theorem length_pack (hpack : d.pack = some bytes) : bytes.length = binFmtSize := by
  unfold RomfsDirent.pack at hpack
  split at hpack
  · cases hpack
    simp
  · cases hpack

theorem length_binName (name : List UInt8) : (binName name).length % 4 = 0 := by
  simp only [binName, List.length_append, List.length_replicate]
  omega

theorem binName_eq (name : List UInt8) : ∃ rest, binName name = name ++ 0 :: rest := by
  refine ⟨List.replicate (3 - name.length % 4) 0, ?_⟩
  rw [binName, ← List.replicate_succ]
  congr 2
  omega

theorem length_padData (data : List UInt8) : (padData data).length % 4 = 0 := by
  unfold padData
  split
  · simp only [List.length_append, List.length_replicate]
    omega
  · omega

theorem padData_eq (data : List UInt8) : ∃ rest, padData data = data ++ rest := by
  unfold padData
  split
  · exact ⟨_, rfl⟩
  · exact ⟨[], by simp⟩

theorem WellNamed.tail {item : RomfsItem} {items : List RomfsItem}
    (hnamed : WellNamed (item :: items)) : WellNamed items := by
  cases hnamed with
  | intro names distinct below =>
    refine ⟨fun other hother => names other (List.mem_cons_of_mem _ hother), ?_, ?_⟩
    · rw [List.map_cons, List.nodup_cons] at distinct
      exact distinct.2
    · intro name children hmem
      exact below name children (List.mem_cons_of_mem _ hmem)

theorem WellNamed.head {item : RomfsItem} {items : List RomfsItem}
    (hnamed : WellNamed (item :: items)) :
    Name item.name ∧ ∀ name children, item = .folder name children → WellNamed children := by
  cases hnamed with
  | intro names distinct below =>
    refine ⟨names item List.mem_cons_self, fun name children hitem => ?_⟩
    exact below name children (hitem ▸ List.mem_cons_self)

theorem length_entries {items : List RomfsItem} {entries payload : List UInt8}
    (hbin : binChildren vLen items = some (entries, payload)) :
    entries.length = 16 * items.length := by
  induction items generalizing vLen entries payload with
  | nil =>
    rw [binChildren] at hbin
    cases hbin
    rfl
  | cons item items ih =>
    rw [binChildren] at hbin
    obtain ⟨data, -, hbin⟩ := Option.bind_eq_some_iff.mp hbin
    obtain ⟨entry, hpack, hbin⟩ := Option.bind_eq_some_iff.mp hbin
    obtain ⟨⟨entries', payload'⟩, hrest, hbin⟩ := Option.map_eq_some_iff.mp hbin
    cases hbin
    rw [List.length_append, length_pack hpack, ih hrest, List.length_cons, Nat.mul_succ,
      Nat.add_comm]

mutual

theorem denotes_of_binData (m : MemoryBlock) (item : RomfsItem) {data entry : List UInt8}
    {a nameAddr dataAddr : Nat} (hend : m.base + m.bytes.length ≤ 2 ^ 32) (hname : 0 ∉ item.name)
    (hbelow : ∀ name children, item = .folder name children → WellNamed children)
    (hbin : binData dataAddr item = some data)
    (hpack : RomfsDirent.pack ⟨item.type, nameAddr, dataAddr, item.entrySize⟩ = some entry)
    (hentry : m.At a entry) (hstring : m.At nameAddr (binName item.name))
    (hdata : m.At dataAddr data) (halign : a % 4 = 0) (halign' : dataAddr % 4 = 0)
    (hpos : 4 ≤ dataAddr) : Denotes m a item := by
  have hdirent := romfsDirentAt_pack hpack hentry halign
  have hread : m.string nameAddr = some item.name := by
    obtain ⟨rest, hrest⟩ := binName_eq item.name
    rw [hrest] at hstring
    exact hstring.string hname
  have hsize := hdata.end_le
  match item with
  | .file name content =>
    rw [binData] at hbin
    cases hbin
    refine ⟨_, hdirent, decide_eq_true ⟨.inl rfl, ?_⟩, hread, rfl, rfl, hdata.read⟩
    show data.length ≠ 2 ^ 32 - 1
    omega
  | .folder name children =>
    rw [binData] at hbin
    obtain ⟨⟨entries, payload⟩, hchildren, hdata'⟩ := Option.map_eq_some_iff.mp hbin
    dsimp only at hdata'
    subst hdata'
    have hlength := length_entries hchildren
    have hpayload := hdata.right
    rw [hlength] at hpayload
    have hnext : (dataAddr + 16 * children.length) % 4 = 0 := by omega
    refine ⟨_, hdirent, decide_eq_true ⟨.inr rfl, ?_⟩, hread, rfl, rfl, by simp only; omega, ?_⟩
    · rw [List.length_append, hlength] at hsize
      show children.length ≠ 2 ^ 32 - 1
      omega
    · exact denotesAll_of_binChildren m children hend (hbelow name children rfl) hchildren
        hdata.left
        hpayload halign' hnext

theorem denotesAll_of_binChildren (m : MemoryBlock) (items : List RomfsItem)
    {entries payload : List UInt8} {a vLen : Nat} (hend : m.base + m.bytes.length ≤ 2 ^ 32) (hnamed : WellNamed items)
    (hbin : binChildren vLen items = some (entries, payload)) (hentries : m.At a entries)
    (hpayload : m.At vLen payload) (halign : a % 4 = 0) (halign' : vLen % 4 = 0) :
    DenotesAll m a items := by
  match items with
  | [] => exact trivial
  | item :: items =>
    rw [binChildren] at hbin
    obtain ⟨data, hdata, hbin⟩ := Option.bind_eq_some_iff.mp hbin
    obtain ⟨entry, hpack, hbin⟩ := Option.bind_eq_some_iff.mp hbin
    obtain ⟨⟨entries', payload'⟩, hrest, hbin⟩ := Option.map_eq_some_iff.mp hbin
    cases hbin
    obtain ⟨hname, hbelow⟩ := hnamed.head
    have hlong : 4 ≤ (binName item.name).length := by
      simp only [binName, List.length_append, List.length_replicate]
      omega
    have hpad := length_padData data
    have hbin := length_binName item.name
    have hfmt : binFmtSize = 16 := rfl
    have hdata' : m.At (vLen + (binName item.name).length) data := by
      obtain ⟨rest, hpadded⟩ := padData_eq data
      have hright := hpayload.left.right
      rw [hpadded] at hright
      exact hright.left
    have hnext := hpayload.right
    rw [List.length_append, ← Nat.add_assoc] at hnext
    have hentry := hentries.right
    rw [length_pack hpack] at hentry
    constructor
    · exact denotes_of_binData m item hend hname.2.1 hbelow hdata hpack hentries.left
        hpayload.left.left hdata' halign (by omega) (by omega)
    · exact denotesAll_of_binChildren m items hend hnamed.tail hrest hentry hnext (by omega)
        (by omega)

end

end Layout

section Lookup

variable {m : MemoryBlock} {a : Nat} {item : RomfsItem} {items : List RomfsItem}
  {name : List UInt8} {names : List (List UInt8)}

/-- What a lookup answers for an item, or for none: the address of the entry and the size. -/
def Answers (m : MemoryBlock) (reply : Option (Option (Nat × Nat))) : Option RomfsItem → Prop
  | none => reply = some none
  | some item => ∃ a, reply = some (some (a, item.entrySize)) ∧ Denotes m a item

theorem Denotes.dirent (hdenotes : Denotes m a item) :
    ∃ d, romfsDirentAt m a = some d ∧ checkDirent d = true ∧ m.string d.name = some item.name ∧
      d.type = item.type ∧ d.size = item.entrySize := by
  cases item with
  | file name data =>
    rw [Denotes] at hdenotes
    obtain ⟨d, hat, hcheck, hstring, htype, hsize, -⟩ := hdenotes
    exact ⟨d, hat, hcheck, hstring, htype, hsize⟩
  | folder name children =>
    rw [Denotes] at hdenotes
    obtain ⟨d, hat, hcheck, hstring, htype, hsize, -⟩ := hdenotes
    exact ⟨d, hat, hcheck, hstring, htype, hsize⟩

theorem sameName_iff {entryName : List UInt8} :
    (entryName.length = name.length ∧ entryName.take name.length = name) ↔ entryName = name := by
  constructor
  · rintro ⟨hlength, htake⟩
    rwa [← hlength, List.take_length] at htake
  · rintro rfl
    exact ⟨rfl, List.take_length⟩

theorem searchFolder_spec (name : List UInt8) (hall : DenotesAll m a items) :
    (items.find? (fun child => child.name = name) = none ∧
        searchFolder m name items.length a = some none) ∨
      ∃ item a' d, items.find? (fun child => child.name = name) = some item ∧
        searchFolder m name items.length a = some (some (a', d)) ∧ Denotes m a' item ∧
        romfsDirentAt m a' = some d := by
  induction items generalizing a with
  | nil => exact .inl ⟨rfl, rfl⟩
  | cons item items ih =>
    rw [DenotesAll] at hall
    obtain ⟨hitem, hrest⟩ := hall
    obtain ⟨d, hat, hcheck, hstring, -⟩ := hitem.dirent
    have hstep : searchFolder m name (items.length + 1) a =
        if item.name = name then some (some (a, d))
        else searchFolder m name items.length (a + binFmtSize) := by
      simp only [searchFolder, hat, Option.bind_some, hcheck, if_true, hstring, sameName_iff]
    rw [List.length_cons, hstep]
    by_cases hname : item.name = name
    · rw [if_pos hname]
      exact .inr ⟨item, a, d, by simp [hname], rfl, hitem, hat⟩
    · rw [if_neg hname, List.find?_cons_of_neg (by simpa using hname)]
      exact ih hrest

def joined (names : List (List UInt8)) : List UInt8 := names.flatMap (slash :: ·)

section

variable (hname : Name name)
include hname

theorem Name.ne_slash : ∀ byte ∈ name, decide (byte ≠ slash) = true := by
  intro byte hbyte
  rw [decide_eq_true_eq]
  rintro rfl
  exact hname.2.2 hbyte

theorem subpathName_joined : subpathName (name ++ joined names) = name := by
  rw [subpathName, List.takeWhile_append_of_pos hname.ne_slash]
  cases names with
  | nil => simp [joined]
  | cons => simp [joined]

theorem skipPathSlashes_name (rest : List UInt8) :
    skipPathSlashes (slash :: (name ++ rest)) = name ++ rest := by
  obtain ⟨byte, name, rfl⟩ := List.exists_cons_of_ne_nil hname.1
  have hne : byte ≠ slash := of_decide_eq_true (hname.ne_slash byte List.mem_cons_self)
  simp [skipPathSlashes, hne]

theorem subpathNext_last : subpathNext (name ++ joined []) = [] := by
  rw [subpathNext, List.dropWhile_append_of_pos hname.ne_slash]
  rfl

theorem subpathNext_joined {next : List UInt8} (hnext : Name next) :
    subpathNext (name ++ joined (next :: names)) = next ++ joined names := by
  have hjoined : joined (next :: names) = slash :: (next ++ joined names) := rfl
  rw [subpathNext, List.dropWhile_append_of_pos hname.ne_slash, hjoined]
  rw [List.dropWhile_cons_of_neg (by simp), skipPathSlashes_name hnext]

theorem lookupLoop_answers (hnames : ∀ other ∈ names, Name other)
    (hnull : a ≠ 0) (hall : DenotesAll m a items) {folder : List UInt8} :
    Answers m (lookupLoop m a items.length (name ++ joined names))
      (resolve (.folder folder items) (name :: names)) := by
  induction names generalizing name a items folder with
  | nil =>
    rw [lookupLoop, if_neg hnull, subpathName_joined hname, resolve]
    rcases searchFolder_spec name hall with
      ⟨hfind, hsearch⟩ | ⟨item, a', d, hfind, hsearch, hdenotes, hat⟩
    · rw [hfind, hsearch]
      rfl
    · obtain ⟨d', hat', -, -, -, hsize⟩ := hdenotes.dirent
      obtain rfl : d = d' := Option.some.inj (hat.symm.trans hat')
      rw [hfind, hsearch]
      dsimp only
      rw [if_pos (subpathNext_last hname), hsize, Option.bind_some, resolve]
      exact ⟨a', rfl, hdenotes⟩
  | cons next names ih =>
    have hnext := hnames next List.mem_cons_self
    have hmore : next ++ joined names ≠ [] := by simp [hnext.1]
    rw [lookupLoop, if_neg hnull, subpathName_joined hname, resolve]
    rcases searchFolder_spec name hall with
      ⟨hfind, hsearch⟩ | ⟨item, a', d, hfind, hsearch, hdenotes, hat⟩
    · rw [hfind, hsearch]
      rfl
    · rw [hfind, hsearch, subpathNext_joined hname hnext]
      dsimp only
      rw [if_neg hmore, Option.bind_some]
      cases item with
      | file other data =>
        obtain ⟨d', hat', -, -, htype, -⟩ := hdenotes.dirent
        obtain rfl : d = d' := Option.some.inj (hat.symm.trans hat')
        rw [if_neg (by rw [htype]; exact Nat.zero_ne_one), resolve]
        rfl
      | folder other children =>
        rw [Denotes] at hdenotes
        obtain ⟨d', hat', -, -, htype, hsize, hnull', hall'⟩ := hdenotes
        obtain rfl : d = d' := Option.some.inj (hat.symm.trans hat')
        rw [if_pos htype, hsize]
        exact ih hnext (fun other hother => hnames other (List.mem_cons_of_mem _ hother)) hnull'
          hall'

end

end Lookup

section Image

variable {tree : List RomfsItem} {base : Nat} {image : List UInt8}

theorem getBinData_denotes (hnamed : WellNamed tree) (halign : base % 4 = 0)
    (himage : getBinData tree base = some image) (hfits : base + image.length ≤ 2 ^ 32) :
    Denotes ⟨base, image⟩ base (.folder [slash] tree) := by
  obtain ⟨entry, hpack, hrest⟩ := Option.bind_eq_some_iff.mp himage
  obtain ⟨data, hdata, rfl⟩ := Option.map_eq_some_iff.mp hrest
  have hat : MemoryBlock.At ⟨base, entry ++ rootName ++ data⟩ base (entry ++ rootName ++ data) :=
    MemoryBlock.At.self
  have hname := hat.left.right
  have hbelow := hat.right
  have hlength := length_pack hpack
  simp only [List.length_append, hlength] at hname hbelow
  have hnoNul : (0 : UInt8) ∉ [slash] := by decide
  have hfmt : binFmtSize = 16 := rfl
  have hroot : rootName.length = 4 := rfl
  apply denotes_of_binData _ (.folder [slash] tree) hfits hnoNul _ hdata hpack hat.left.left
    hname hbelow halign (by omega) (by omega)
  rintro name children htree
  cases htree
  exact hnamed

/-- The round trip of a tree through its image. -/
theorem dfsRomfsLookup_answers (hnamed : WellNamed tree) (halign : base % 4 = 0)
    (himage : getBinData tree base = some image) (hfits : base + image.length ≤ 2 ^ 32)
    (names : List (List UInt8)) (hnames : ∀ name ∈ names, Name name) :
    Answers ⟨base, image⟩ (dfsRomfsLookup ⟨base, image⟩ base (pathOf names))
      (resolve (.folder [slash] tree) names) := by
  have hroot := getBinData_denotes hnamed halign himage hfits
  obtain ⟨d, hat, hcheck, -, -, hsize⟩ := hroot.dirent
  unfold dfsRomfsLookup
  rw [hat, Option.bind_some, if_pos hcheck]
  cases names with
  | nil =>
    have hpath : pathOf [] = [slash] := rfl
    rw [if_pos hpath, hsize, resolve]
    exact ⟨base, rfl, hroot⟩
  | cons name names =>
    have hname := hnames name List.mem_cons_self
    have hpath : pathOf (name :: names) = slash :: (name ++ joined names) := rfl
    have hlong : slash :: (name ++ joined names) ≠ [slash] := by simp [hname.1]
    rw [Denotes] at hroot
    obtain ⟨d', hat', -, -, -, hsize', hnull, hall⟩ := hroot
    obtain rfl : d = d' := Option.some.inj (hat.symm.trans hat')
    rw [hpath, if_neg hlong, skipPathSlashes_name hname, hsize']
    exact lookupLoop_answers hname (fun other hother => hnames other
      (List.mem_cons_of_mem _ hother)) hnull hall

def smallTree : List RomfsItem :=
  [.folder [97] [.file [98] [1, 2, 3], .folder [99] []], .file [97, 98] []]

theorem smallTree_named : WellNamed smallTree := by
  refine ⟨by decide, by decide, fun name children hmem => ?_⟩
  obtain ⟨-, rfl⟩ : name = [97] ∧ children = [.file [98] [1, 2, 3], .folder [99] []] := by
    simpa [smallTree] using hmem
  refine ⟨by decide, by decide, fun name children hmem => ?_⟩
  obtain ⟨-, rfl⟩ : name = [99] ∧ children = [] := by simpa using hmem
  exact ⟨by simp, by simp, by simp⟩

/-- A file in the directory is found, and a name that only begins like another one is not. -/
theorem dfsRomfsLookup_answers_small :
    ∃ image, getBinData smallTree 4096 = some image ∧
      (∃ a, dfsRomfsLookup ⟨4096, image⟩ 4096 [47, 97, 47, 98] = some (some (a, 3)) ∧
        Denotes ⟨4096, image⟩ a (.file [98] [1, 2, 3])) ∧
      dfsRomfsLookup ⟨4096, image⟩ 4096 [47, 97, 98, 99] = some none := by
  have hlength : (getBinData smallTree 4096).map List.length = some 104 := by decide +kernel
  obtain ⟨image, himage, himageLength⟩ := Option.map_eq_some_iff.mp hlength
  have hfits : 4096 + image.length ≤ 2 ^ 32 := by omega
  refine ⟨image, himage, ?_, ?_⟩
  · exact dfsRomfsLookup_answers smallTree_named (by decide) himage hfits [[97], [98]]
      (by decide)
  · exact dfsRomfsLookup_answers smallTree_named (by decide) himage hfits [[97, 98, 99]]
      (by decide)

end Image

end RtThread.Dfs.Romfs
