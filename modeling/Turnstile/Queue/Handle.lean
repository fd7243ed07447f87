/-!
# Queue handles

A queue is named by one 64-bit word: the low half is the index of a slot and the high half the
generation of that slot when the queue was stored in it. A slot that is used again has moved on
to another generation, so a word kept from before no longer fits.

* **`QueueId.pack`** makes the word, **`generation`** and **`index`** read it back.
* **`generation_pack`**, **`index_pack`** and **`pack_generation_index`**: for indices below
  2^32 the word and the pair determine each other.
-/

namespace Turnstile

/-- The handle of a queue. -/
structure QueueId where
  word : UInt64
deriving DecidableEq, Repr, Inhabited

namespace QueueId

/-- The handle of slot `index` in the given generation. Only the low 32 bits of the index
fit. -/
def pack (generation : UInt32) (index : Nat) : QueueId :=
  ⟨UInt64.ofNat (generation.toNat * 4294967296 + index % 4294967296)⟩

/-- The generation half of a handle. -/
def generation (id : QueueId) : UInt32 := UInt32.ofNat (id.word.toNat / 4294967296)

/-- The slot half of a handle. -/
def index (id : QueueId) : Nat := id.word.toNat % 4294967296

/-- The text of a handle in messages and logs: slot, then generation. -/
def text (id : QueueId) : String :=
  "Q" ++ toString id.index ++ "." ++ toString id.generation.toNat

/-! ## The word and the pair -/

theorem toNat_word_pack (generation : UInt32) (index : Nat) :
    (pack generation index).word.toNat =
      generation.toNat * 4294967296 + index % 4294967296 := by
  have := generation.toNat_lt
  simp only [pack, UInt64.toNat_ofNat']
  omega

@[simp] theorem generation_pack (g : UInt32) (index : Nat) :
    (pack g index).generation = g := by
  apply UInt32.toNat.inj
  have := g.toNat_lt
  simp only [generation, toNat_word_pack, UInt32.toNat_ofNat']
  omega

theorem index_pack (g : UInt32) (i : Nat) : (pack g i).index = i % 4294967296 := by
  simp only [index, toNat_word_pack]
  omega

theorem index_pack_of_lt (g : UInt32) {i : Nat} (h : i < 4294967296) : (pack g i).index = i := by
  rw [index_pack, Nat.mod_eq_of_lt h]

theorem index_lt (id : QueueId) : id.index < 4294967296 :=
  Nat.mod_lt _ (by decide)

@[simp] theorem pack_generation_index (id : QueueId) : pack id.generation id.index = id := by
  obtain ⟨word⟩ := id
  have := word.toNat_lt
  simp only [pack, generation, index, UInt32.toNat_ofNat', mk.injEq]
  apply UInt64.toNat.inj
  simp only [UInt64.toNat_ofNat']
  omega

/-- Two handles of one slot in one generation are the same. -/
theorem eq_of_index_of_generation {a b : QueueId} (index : a.index = b.index)
    (generation : a.generation = b.generation) : a = b := by
  rw [← pack_generation_index a, ← pack_generation_index b, index, generation]

end QueueId

end Turnstile
