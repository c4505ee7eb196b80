import FlashLink.Source
import FlashLink.Proofs.ByteSpans
import FlashLink.Proofs.Logic

/-!
Reading from a source. A read answers what `fetch` says, whatever was read before; it only adds to
the record of reads. A read of at least one byte succeeds exactly when the source holds all its bytes.
-/

namespace FlashLink.Source

open Act

/-- All bytes there are to read. -/
def data (s : Source) : Bytes :=
  match s.kind with
  | .memory d => d
  | .file d => d
  | .directory => #[]

/-- The same object, however much of it has been read. -/
structure Same (s t : Source) : Prop where
  kind_eq : t.kind = s.kind
  name_eq : t.name = s.name

/-- The bytes that a read answers, or why it fails. -/
def fetch (s : Source) (offset len : Nat) : Except Error Bytes :=
  match s.deliver offset len with
  | (got, none) => .ok got
  | (_, some e) => .error e

/-- The source has all bytes of a span. -/
def Holds (s : Source) (offset len : Nat) : Prop := 0 < len → offset + len ≤ s.data.size

variable {s t u : Source} {offset len : Nat}

namespace Same

lemma refl (s : Source) : Same s s := ⟨rfl, rfl⟩

lemma trans (h : Same s t) (h' : Same t u) : Same s u :=
  ⟨h'.1.trans h.1, h'.2.trans h.2⟩

lemma euclid (h : Same s t) (h' : Same s u) : Same t u :=
  ⟨h'.1.trans h.1.symm, h'.2.trans h.2.symm⟩

lemma data_eq (h : Same s t) : t.data = s.data := by
  rw [data, data, h.1]

lemma deliver_eq (h : Same s t) (offset len : Nat) : t.deliver offset len = s.deliver offset len := by
  rw [deliver, deliver, h.1, h.2]

lemma fetch_eq (h : Same s t) (offset len : Nat) : t.fetch offset len = s.fetch offset len := by
  rw [fetch, fetch, h.deliver_eq]

lemma holds_iff (h : Same s t) : t.Holds offset len ↔ s.Holds offset len := by
  rw [Holds, Holds, h.data_eq]

end Same

lemma fetch_of_le (hlen : 0 < len) (h : offset + len ≤ s.data.size) :
    s.fetch offset len = .ok (s.data.slice offset len) := by
  unfold data at h ⊢
  unfold fetch deliver
  rcases hk : s.kind with d | d | _ <;> simp only [hk] at h ⊢
  · rw [if_pos h]
  · rw [if_pos (.inr h)]
  · simp at h; omega

/-- A read delivers no more than it was asked for. -/
lemma size_deliver (s : Source) (offset len : Nat) : (s.deliver offset len).1.size ≤ len := by
  unfold deliver
  have hslice : ∀ d : Bytes, (d.slice offset len).size ≤ len := fun d => by
    rw [Bytes.size_slice]; omega
  rcases s.kind with d | d | _ <;> simp only <;> split <;> first | exact hslice d | simp

/-- A read that succeeds answers the bytes of its span, all of them. -/
lemma fetch_eq_ok {b : Bytes} (h : s.fetch offset len = .ok b) :
    b = s.data.slice offset len ∧ b.size = len ∧ s.Holds offset len := by
  rcases Nat.eq_zero_or_pos len with rfl | hlen
  · have hsize := size_deliver s offset 0
    unfold fetch at h
    rcases hd : s.deliver offset 0 with ⟨got, _ | e⟩ <;> simp only [hd] at h hsize
    · cases h
      have hb : b = #[] := Array.eq_empty_of_size_eq_zero (by omega)
      exact ⟨by simp [hb], by simp [hb], fun h => by omega⟩
    · cases h
  · by_cases hle : offset + len ≤ s.data.size
    · rw [fetch_of_le hlen hle] at h
      cases h
      exact ⟨rfl, Bytes.size_slice_of_le hle, fun _ => hle⟩
    · exfalso
      unfold data at hle
      unfold fetch deliver at h
      rcases hk : s.kind with d | d | _ <;> simp only [hk] at h hle
      · rw [if_neg hle] at h; simp at h
      · rw [if_neg (by omega)] at h; simp at h
      · rw [if_neg (by omega)] at h; simp at h

lemma fetch_ok_iff (hlen : 0 < len) :
    (∃ b, s.fetch offset len = .ok b) ↔ offset + len ≤ s.data.size :=
  ⟨fun ⟨_, h⟩ => (fetch_eq_ok h).2.2 hlen, fun h => ⟨_, fetch_of_le hlen h⟩⟩

/-- A span of a span that the source holds. -/
lemma Holds.sub {i n : Nat} (h : s.Holds offset len) (hi : i + n ≤ len) : s.Holds (offset + i) n := by
  intro hn
  have := h (by omega)
  omega

lemma read_yields (s : Source) (offset len : Nat) :
    Yields (read offset len) s (s.fetch offset len) (Same s) := by
  unfold Yields Sat read fetch
  rcases s.deliver offset len with ⟨got, _ | e⟩
  · exact ⟨rfl, rfl, rfl⟩
  · exact ⟨rfl, rfl, rfl⟩

/-- What is the same source answers the same. -/
lemma read_same {src u : Source} (h : Same src u) (offset len : Nat) :
    Sat (read offset len) u
      (fun b v => Same src v ∧ src.fetch offset len = .ok b ∧ b = src.data.slice offset len)
      (fun e v => Same src v ∧ src.fetch offset len = .error e) := by
  refine (read_yields u offset len).mono ?_ ?_ <;> rw [h.fetch_eq]
  · exact fun b v hv => ⟨h.trans hv.2, hv.1, (fetch_eq_ok hv.1).1⟩
  · exact fun e v hv => ⟨h.trans hv.2, hv.1⟩

/-! ### Readers -/

/-- An action that does nothing but read: what it answers depends on the object alone, not on what
has been read of it before. -/
def Steady {α : Type} (x : Act Source α) : Prop :=
  ∀ s t : Source, Same s t → Yields x t (x s).result (Same s)

namespace Steady

variable {α β : Type} {x : Act Source α} {f : α → Act Source β}

lemma pure (a : α) : Steady (Pure.pure a) := fun _ _ h => ⟨rfl, h⟩

lemma throw (e : Error) : Steady (throw e : Act Source α) := fun _ _ h => ⟨rfl, h⟩

lemma note (ev : Event) : Steady (Act.note ev) := fun _ _ h => ⟨rfl, h⟩

lemma ofExcept (r : Except Error α) : Steady (Act.ofExcept r) := fun s t h => by
  cases r <;> exact ⟨rfl, h⟩

lemma read (offset len : Nat) : Steady (Source.read offset len) := fun s t h => by
  have hs : (Source.read offset len s).result = s.fetch offset len := by
    unfold Source.read fetch
    rcases s.deliver offset len with ⟨got, _ | e⟩ <;> rfl
  rw [hs, ← h.fetch_eq]
  exact (read_yields t offset len).mono (fun _ _ h' => ⟨h'.1, h.trans h'.2⟩)
    fun _ _ h' => ⟨h'.1, h.trans h'.2⟩

lemma bind (hx : Steady x) (hf : ∀ a, Steady (f a)) : Steady (x >>= f) := by
  intro s t h
  have hst := hx s t h
  have hss := hx s s (.refl s)
  change Yields _ t (Act.bind x f s).result (Same s)
  unfold Act.bind
  rcases hxs : x s with ⟨e | a, u, es⟩ <;> simp only [hxs, Yields, Sat] at hst hss ⊢
  · refine Sat.bind hst (fun _ _ h => by cases h.1) ?_
    rintro _ _ ⟨he, hv⟩
    cases he
    exact ⟨rfl, hv⟩
  · refine Sat.bind hst ?_ fun _ _ h => by cases h.1
    rintro b v ⟨hb, hv⟩
    cases hb
    exact (hf a u v (hss.2.euclid hv)).mono (fun _ _ h' => ⟨h'.1, hss.2.trans h'.2⟩)
      fun _ _ h' => ⟨h'.1, hss.2.trans h'.2⟩

end Steady

/-! ### Filling buffers -/

/-- Reading into a buffer writes nothing but the span that is read, and all of it on success. -/
lemma readInto_sat (start offset len : Nat) (buf : Bytes) (s : Source) :
    Sat (readInto start offset len) (buf, s)
      (fun _ t => s.fetch offset len = .ok (s.data.slice offset len) ∧
        t.1 = buf.overwrite start (s.data.slice offset len) ∧ Same s t.2)
      (fun e t => s.fetch offset len = .error e ∧ Same s t.2 ∧
        ∃ got : Bytes, got.size ≤ len ∧ t.1 = buf.overwrite start got) := by
  have hsize := size_deliver s offset len
  unfold Sat readInto
  rcases hd : s.deliver offset len with ⟨got, _ | e⟩ <;> simp only [hd] at hsize ⊢
  · have hf : s.fetch offset len = .ok got := by rw [fetch, hd]
    have hgot := (fetch_eq_ok hf).1
    subst hgot
    exact ⟨hf, rfl, rfl, rfl⟩
  · exact ⟨by rw [fetch, hd], ⟨rfl, rfl⟩, got, hsize, rfl⟩

/-- A span is read exactly if the source holds it. -/
lemma readInto_holds {src s : Source} (h : Same src s) (start offset : Nat) {len : Nat} (hpos : 0 < len)
    (buf : Bytes) :
    Sat (readInto start offset len) (buf, s)
      (fun _ t => src.Holds offset len ∧ t.1 = buf.overwrite start (src.data.slice offset len) ∧ Same src t.2)
      (fun _ _ => ¬ src.Holds offset len) := by
  refine (readInto_sat start offset len buf s).mono ?_ ?_
  · rintro _ t ⟨hfetch, hbuf, hsame⟩
    rw [h.data_eq] at hbuf
    exact ⟨h.holds_iff.1 (fetch_eq_ok hfetch).2.2, hbuf, h.trans hsame⟩
  · rintro e _ ⟨hfetch, -⟩ hholds
    obtain ⟨b, hb⟩ := (fetch_ok_iff hpos).2 (h.holds_iff.2 hholds hpos)
    rw [hb] at hfetch
    cases hfetch

end FlashLink.Source
