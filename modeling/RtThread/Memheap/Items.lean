import RtThread.Lib.LinkedRing
import RtThread.Memheap.Heap

namespace RtThread.Memheap

open Function RtThread.Lib

abbrev Items := ItemField → Nat → Nat

def itemsOf (memory : ByteMemory) : Items := fun field item => itemGet field memory item

namespace Items

def set (field : ItemField) (item value : Nat) (items : Items) : Items :=
  update items field (update (items field) item value)

variable {field other : ItemField} {item value : Nat} {items : Items}

@[simp] theorem set_same : items.set field item value field =
    update (items field) item value := update_self ..

theorem set_other (hne : other ≠ field) : items.set field item value other = items other :=
  update_of_ne hne ..

def makeItem (heap header item : Nat) (items : Items) : Items :=
  let items := items.set .magic item memheapMagic
  let items := items.set .poolPtr item heap
  let items := items.set .prev item header
  let items := items.set .next item (items .next header)
  let items := items.set .prev (items .next header) item
  items.set .next header item

def freeRemove (item : Nat) (items : Items) : Items :=
  let items := items.set .prevFree (items .nextFree item) (items .prevFree item)
  items.set .nextFree (items .prevFree item) (items .nextFree item)

def freeInsert (freeList item : Nat) (items : Items) : Items :=
  let items := items.set .nextFree item (items .nextFree freeList)
  let items := items.set .prevFree item freeList
  let items := items.set .prevFree (items .nextFree freeList) item
  items.set .nextFree freeList item

end Items

namespace Items

section Fields

variable {heap header item freeList : Nat} {items : Items} {field : ItemField}

def Blocks (field : ItemField) : Prop := field ≠ .nextFree ∧ field ≠ .prevFree

instance (field : ItemField) : Decidable (Blocks field) := inferInstanceAs (Decidable (_ ∧ _))

theorem makeItem_next (hne : header ≠ item) : items.makeItem heap header item .next =
    update (update (items .next) item (items .next header)) header item := by
  simp [makeItem, set_other, update_of_ne hne]

theorem makeItem_prev (hne : header ≠ item) : items.makeItem heap header item .prev =
    update (update (items .prev) item header) (items .next header) item := by
  simp [makeItem, set_other, update_of_ne hne]

theorem makeItem_magic : items.makeItem heap header item .magic =
    update (items .magic) item memheapMagic := by
  simp [makeItem, set_other]

theorem makeItem_poolPtr : items.makeItem heap header item .poolPtr =
    update (items .poolPtr) item heap := by
  simp [makeItem, set_other]

theorem makeItem_free (hfield : ¬ Blocks field) :
    items.makeItem heap header item field = items field := by
  cases field <;> simp [Blocks, makeItem, set_other] at hfield ⊢

theorem freeRemove_nextFree (hne : items .nextFree item ≠ item) :
    items.freeRemove item .nextFree =
      update (items .nextFree) (items .prevFree item) (items .nextFree item) := by
  simp [freeRemove, set_other, update_of_ne hne.symm]

theorem freeRemove_prevFree : items.freeRemove item .prevFree =
    update (items .prevFree) (items .nextFree item) (items .prevFree item) := by
  simp [freeRemove, set_other]

theorem freeRemove_blocks (hfield : Blocks field) : items.freeRemove item field = items field := by
  rw [freeRemove, set_other hfield.1, set_other hfield.2]

theorem freeInsert_nextFree : items.freeInsert freeList item .nextFree =
    update (update (items .nextFree) item (items .nextFree freeList)) freeList
      item := by
  simp [freeInsert, set_other]

theorem freeInsert_prevFree (hne : freeList ≠ item) : items.freeInsert freeList item .prevFree =
    update (update (items .prevFree) item freeList) (items .nextFree freeList)
      item := by
  simp [freeInsert, set_other, update_of_ne hne]

theorem freeInsert_blocks (hfield : Blocks field) :
    items.freeInsert freeList item field = items field := by
  rw [freeInsert, set_other hfield.1, set_other hfield.2, set_other hfield.2, set_other hfield.1]

end Fields

end Items

structure Sites (sites : Set Nat) : Prop where
  apart : ∀ a ∈ sites, ∀ b ∈ sites, a ≠ b → a + 24 ≤ b ∨ b + 24 ≤ a
  inside : ∀ a ∈ sites, a + 24 ≤ 2 ^ 32

structure Edited (sites : Set Nat) (memory memory' : ByteMemory) (items : Items) : Prop where
  shows : ∀ field, ∀ a ∈ sites, itemGet field memory' a = items field a
  outside : ∀ i, (∀ a ∈ sites, i < a ∨ a + 24 ≤ i) → memory' i = memory i

theorem ItemField.offset_le (field : ItemField) : field.offset + 4 ≤ 24 := by
  cases field <;> decide

theorem ItemField.offset_apart {field other : ItemField} (hne : field ≠ other) :
    field.offset + 4 ≤ other.offset ∨ other.offset + 4 ≤ field.offset := by
  cases field <;> cases other <;> first | exact absurd rfl hne | decide

section Edited

variable {sites : Set Nat} {memory memory' : ByteMemory} {items : Items} {field : ItemField}
  {heap header item freeList value : Nat}

theorem Edited.refl (sites : Set Nat) (memory : ByteMemory) :
    Edited sites memory memory (itemsOf memory) := ⟨fun _ _ _ => rfl, fun _ _ => rfl⟩

theorem Sites.lt (hsites : Sites sites) (hitem : item ∈ sites) : item < 2 ^ 32 := by
  have hinside := hsites.inside item hitem
  omega

theorem Edited.itemSet (field : ItemField) (hedited : Edited sites memory memory' items)
    (hsites : Sites sites) (hitem : item ∈ sites) (hvalue : value < 2 ^ 32) :
    Edited sites memory (itemSet field item value memory') (items.set field item value) := by
  have hoffset := field.offset_le
  constructor
  · intro other a ha
    unfold Memheap.itemSet itemGet
    by_cases heq : a = item
    · subst heq
      by_cases hfield : other = field
      · subst hfield
        rw [ByteMemory.readWord_writeWord hvalue, Items.set_same, update_self]
      · rw [Items.set_other hfield, ByteMemory.readWord_writeWord_apart]
        · exact hedited.shows other a ha
        · have hapart := ItemField.offset_apart hfield
          omega
    · have hother := other.offset_le
      have hapart := hsites.apart a ha item hitem heq
      rw [ByteMemory.readWord_writeWord_apart (by omega)]
      have hshows : itemGet other memory' a = items other a := hedited.shows other a ha
      by_cases hfield : other = field
      · subst hfield
        rw [Items.set_same, update_of_ne heq]
        exact hshows
      · rw [Items.set_other hfield]
        exact hshows
  · intro i hi
    have hout := hi item hitem
    unfold Memheap.itemSet
    rw [ByteMemory.writeWord_outside (by omega)]
    exact hedited.outside i hi

theorem Edited.makeItem (hedited : Edited sites memory memory' items) (hsites : Sites sites)
    (hheader : header ∈ sites) (hitem : item ∈ sites) (hnext : items .next header ∈ sites)
    (hheap : heap < 2 ^ 32) (hne : header ≠ item) :
    Edited sites memory (makeItem heap header item memory') (items.makeItem heap header item) := by
  have h1 := hedited.itemSet .magic hsites hitem (show memheapMagic < 2 ^ 32 by decide)
  have h2 := h1.itemSet .poolPtr hsites hitem hheap
  have h3 := h2.itemSet .prev hsites hitem (hsites.lt hheader)
  have hsame : ∀ a, a ≠ item → (((items.set .magic item memheapMagic).set .poolPtr item heap).set
      .prev item header) .next a = items .next a := by
    intro a _
    simp [Items.set_other]
  have hread := h3.shows .next header hheader
  rw [hsame header hne] at hread
  have h4 := h3.itemSet .next hsites hitem (hsites.lt hnext)
  have hread' := h4.shows .next header hheader
  rw [Items.set_same, update_of_ne hne, hsame header hne] at hread'
  have h5 := h4.itemSet .prev hsites hnext (hsites.lt hitem)
  have h6 := h5.itemSet .next hsites hheader (hsites.lt hitem)
  unfold Memheap.makeItem Items.makeItem
  simp only [hread, hread', hsame header hne, Items.set_same, update_of_ne hne]
  exact h6

theorem Edited.freeRemove (hedited : Edited sites memory memory' items) (hsites : Sites sites)
    (hitem : item ∈ sites) (hnext : items .nextFree item ∈ sites)
    (hprev : items .prevFree item ∈ sites) (hne : items .nextFree item ≠ item) :
    Edited sites memory (freeRemove item memory') (items.freeRemove item) := by
  have hreadNext := hedited.shows .nextFree item hitem
  have hreadPrev := hedited.shows .prevFree item hitem
  have h1 := hedited.itemSet .prevFree hsites hnext (hsites.lt hprev)
  have hreadNext' := h1.shows .nextFree item hitem
  have hreadPrev' := h1.shows .prevFree item hitem
  rw [Items.set_other (by decide)] at hreadNext'
  rw [Items.set_same, update_of_ne hne.symm] at hreadPrev'
  have h2 := h1.itemSet .nextFree hsites hprev (hsites.lt hnext)
  unfold Memheap.freeRemove Items.freeRemove
  simp only [hreadNext, hreadPrev, hreadNext', hreadPrev', Items.set_same,
    update_of_ne hne.symm, Items.set_other (show ItemField.nextFree ≠ .prevFree by decide)]
  exact h2

theorem Edited.freeInsert (hedited : Edited sites memory memory' items) (hsites : Sites sites)
    (hlist : freeList ∈ sites) (hitem : item ∈ sites) (hnext : items .nextFree freeList ∈ sites)
    (hne : freeList ≠ item) :
    Edited sites memory (freeInsert freeList item memory') (items.freeInsert freeList item) := by
  have hread := hedited.shows .nextFree freeList hlist
  have h1 := hedited.itemSet .nextFree hsites hitem (hsites.lt hnext)
  have h2 := h1.itemSet .prevFree hsites hitem (hsites.lt hlist)
  have hread' := h2.shows .nextFree freeList hlist
  rw [Items.set_other (by decide), Items.set_same, update_of_ne hne] at hread'
  have h3 := h2.itemSet .prevFree hsites hnext (hsites.lt hitem)
  have h4 := h3.itemSet .nextFree hsites hlist (hsites.lt hitem)
  unfold Memheap.freeInsert Items.freeInsert
  simp only [hread, hread', Items.set_same, update_of_ne hne,
    Items.set_other (show ItemField.nextFree ≠ .prevFree by decide)]
  exact h4

end Edited

end RtThread.Memheap
