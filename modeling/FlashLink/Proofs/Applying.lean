import FlashLink.Proofs.LinkedCalls

/-!
Applying one entry. Whoever resolves symbols is asked once at most, for the symbol of the entry, and only
if the field lies in the buffer and needs an address. The buffer changes only if the entry is patched, and
then only in the four bytes of the field. All this holds for every resolver, also for one that fails or
that remembers what it has been asked.
-/

namespace FlashLink

/-- What becomes of an entry of this kind once it is applied. -/
def RelocKind.done : RelocKind → Applied
  | .ignore => .ignored
  | .absolute => .patched
  | .call => .patched
  | .unsupported => .skipped

namespace Relocation

open Act

variable {σ : Type}

/-- A resolver that also writes down what it is asked for. -/
def recording (resolve : Nat → Act σ Addr) (i : Nat) : Act (List Nat × σ) Addr := do
  modify fun w => (w.1 ++ [i], w.2)
  zoom Part.second (resolve i)

/-- The field needs the address of a symbol. -/
def Linking (r : Relocation) : Prop := r.kind = .absolute ∨ r.kind = .call

instance (r : Relocation) : Decidable r.Linking := inferInstanceAs (Decidable (_ ∨ _))

/-- What applying the entry asks for, where the buffer has `len` bytes from section offset `first` on. -/
def asks (first len : Nat) (r : Relocation) : List Nat :=
  if inside first len r ∧ r.Linking then [r.symbol] else []

/-- The field of the entry has been given an address, and nothing else in the buffer has changed. -/
structure Patched (first : Nat) (r : Relocation) (target : Addr) (buf out : Bytes) : Prop where
  inside : inside first buf.size r
  linking : r.Linking
  around : buf.SameOn (fun i => i < r.start - first ∨ r.start - first + 4 ≤ i) out
  absolute : r.kind = .absolute →
    (out.u32 (r.start - first)).toNat =
      ((buf.u32 (r.start - first)).toNat + target.toNat) % 2 ^ 32
  call : r.kind = .call →
    out.u16 (r.start - first) &&& 0xf800 = buf.u16 (r.start - first) &&& 0xf800 ∧
      out.u16 (r.start - first + 2) &&& 0xd000 = buf.u16 (r.start - first + 2) &&& 0xd000

variable {first : Nat} {base : Addr} {strict : Bool} {rule : Rule} {r : Relocation} {buf out : Bytes}
  {resolve : Nat → Act σ Addr} {s : σ} {target : Addr}

lemma done_eq_patched : r.kind.done = .patched ↔ r.Linking := by
  unfold Linking RelocKind.done
  rcases r.kind <;> simp

/-! ### The new bytes of a field -/

lemma fits_of_inside (h : inside first buf.size r) :
    first ≤ r.start ∧ r.start - first + 4 ≤ buf.size := by
  obtain ⟨h1, h2⟩ := inside_iff.1 h
  rw [stop] at h2
  omega

lemma link_absolute (hin : inside first buf.size r) (hkind : r.kind = .absolute)
    (htarget : rule r.symbol = .ok target) :
    link first base strict rule buf r =
      .ok (buf.overwrite (r.start - first) (absoluteField (buf.u32 (r.start - first)) target)) := by
  rw [link, if_pos hin, field, hkind]
  dsimp only
  rw [htarget, Bytes.u32_slice]
  rfl

lemma link_call (hin : inside first buf.size r) (hkind : r.kind = .call)
    (htarget : rule r.symbol = .ok target) :
    link first base strict rule buf r =
      ((callField (buf.u16 (r.start - first)) (buf.u16 (r.start - first + 2)) target
        (base + r.offset)).mapError fun d => .relocationRange r.start (Int32.ofInt d)).map
          (buf.overwrite (r.start - first)) := by
  rw [link, if_pos hin, field, hkind]
  dsimp only
  rw [htarget, Bytes.u16_slice _ _ (by omega), Bytes.u16_slice _ _ (by omega), Nat.add_zero]

lemma link_error {e : Error} (hin : inside first buf.size r) (hlinking : r.Linking)
    (hfails : rule r.symbol = .error e) : link first base strict rule buf r = .error e := by
  rw [link, if_pos hin, field]
  rcases hlinking with hkind | hkind
  all_goals
    rw [hkind]
    dsimp only
    rw [hfails]
    rfl

lemma patched_absolute (hin : inside first buf.size r) (hkind : r.kind = .absolute) :
    Patched first r target buf
      (buf.overwrite (r.start - first) (absoluteField (buf.u32 (r.start - first)) target)) where
  inside := hin
  linking := .inl hkind
  around := Bytes.sameOn_overwrite buf fun _ h => h
  absolute _ := by
    have hslice := Bytes.slice_overwrite (d := absoluteField (buf.u32 (r.start - first)) target) (n := 4) rfl
      (fits_of_inside hin).2
    rw [← Bytes.u32_slice, hslice, absoluteField, Bytes.u32_ofU32, UInt32.toNat_add]
  call h := by rw [hkind] at h; cases h

lemma patched_call (hin : inside first buf.size r) (hkind : r.kind = .call)
    (h : callField (buf.u16 (r.start - first)) (buf.u16 (r.start - first + 2)) target
      (base + r.offset) = .ok out) :
    Patched first r target buf (buf.overwrite (r.start - first) out) := by
  rw [callField_eq rfl] at h
  split_ifs at h
  obtain rfl := Except.ok.inj h
  obtain ⟨hhigh, hlow, haround⟩ := linked_encode (fits_of_inside hin).2
    (distance target (Branch.decode (buf.u16 (r.start - first)) (buf.u16 (r.start - first + 2)))
      (base + r.offset))
  refine ⟨hin, .inr hkind, haround, fun h => ?_, fun _ => ⟨?_, ?_⟩⟩
  · rw [hkind] at h
    cases h
  · rw [hhigh]
    exact Branch.encode_high_opcode _ _ _
  · rw [hlow]
    exact Branch.encode_low_opcode _ _ _

/-- Linking a field that needs an address patches it. -/
lemma patched_link (hin : inside first buf.size r) (hlinking : r.Linking)
    (h : link first base strict rule buf r = .ok out) :
    ∃ target, rule r.symbol = .ok target ∧ Patched first r target buf out := by
  rcases htarget : rule r.symbol with e | target
  · rw [link_error hin hlinking htarget] at h
    cases h
  refine ⟨target, rfl, ?_⟩
  rcases hlinking with hkind | hkind
  · rw [link_absolute hin hkind htarget] at h
    cases h
    exact patched_absolute hin hkind
  · rw [link_call hin hkind htarget] at h
    rcases hcall : callField (buf.u16 (r.start - first)) (buf.u16 (r.start - first + 2)) target
      (base + r.offset) with d | f <;> rw [hcall] at h
    · cases h
    · cases h
      exact patched_call hin hkind hcall

/-! ### Whether anybody is asked -/

/-- An entry that needs no address of a symbol, or whose field lies elsewhere, changes nothing, and its
outcome does not depend on any resolver. -/
lemma apply_unasked (base : Addr) (strict : Bool) (h : ¬ (inside first buf.size r ∧ r.Linking)) :
    ∃ result es, (∀ a, result = .ok a → inside first buf.size r ∧ a = r.kind.done) ∧
      ∀ (τ : Type) (resolve : Nat → Act τ Addr) (t : τ),
        r.apply first base strict resolve (buf, t) = ⟨result, (buf, t), es⟩ := by
  unfold apply
  by_cases hin : inside first buf.size r
  · have hkind : ¬ r.Linking := fun hr => h ⟨hin, hr⟩
    obtain ⟨hfirst, hfits⟩ := fits_of_inside hin
    have hcheck : (decide (first ≤ r.start) && decide (r.start - first + 4 ≤ buf.size)) = true := by
      simp [hfirst, hfits]
    rcases hk : r.kind
    · refine ⟨.ok .ignored, [], fun a ha => ⟨hin, (Except.ok.inj ha).symm⟩, fun τ resolve t => ?_⟩
      rw [get_bind, if_pos hcheck]
      rfl
    · exact (hkind (.inl hk)).elim
    · exact (hkind (.inr hk)).elim
    · cases strict
      · refine ⟨.ok .skipped, [.relocationSkipped r.type r.start],
          fun a ha => ⟨hin, (Except.ok.inj ha).symm⟩, fun τ resolve t => ?_⟩
        rw [get_bind, if_pos hcheck]
        rfl
      · refine ⟨.error (.unsupportedRelocation r.type r.start), [], fun a ha => (by cases ha),
          fun τ resolve t => ?_⟩
        rw [get_bind, if_pos hcheck]
        rfl
  · have hcheck : ¬ (decide (first ≤ r.start) && decide (r.start - first + 4 ≤ buf.size)) = true := by
      rw [inside_iff, stop] at hin
      simp only [Bool.and_eq_true, decide_eq_true_eq]
      omega
    refine ⟨.error (.parse (.fieldOutsideBuffer r.start)), [], fun a ha => (by cases ha),
      fun τ resolve t => ?_⟩
    rw [get_bind, if_neg hcheck]
    rfl

/-- An entry that needs the address of a symbol asks for it, and the field is linked with the answer. If
either fails, so does the entry, and the buffer is as it was. -/
lemma apply_asking (hin : inside first buf.size r) (hlinking : r.Linking) :
    r.apply first base strict resolve (buf, s) =
      match link first base strict (fun i => (resolve i s).result) buf r with
      | .ok out => ⟨.ok .patched, (out, (resolve r.symbol s).state), (resolve r.symbol s).events⟩
      | .error e => ⟨.error e, (buf, (resolve r.symbol s).state), (resolve r.symbol s).events⟩ := by
  obtain ⟨hfirst, hfits⟩ := fits_of_inside hin
  have hcheck : (decide (first ≤ r.start) && decide (r.start - first + 4 ≤ buf.size)) = true := by
    simp [hfirst, hfits]
  have hzoom : zoom (Part.second (α := Bytes)) (resolve r.symbol) (buf, s) =
      ⟨(resolve r.symbol s).result, (buf, (resolve r.symbol s).state), (resolve r.symbol s).events⟩ := rfl
  unfold apply
  rw [get_bind, if_pos hcheck]
  rcases hx : resolve r.symbol s with ⟨e | target, s', es⟩ <;> rw [hx] at hzoom
  · rw [link_error hin hlinking (congrArg Outcome.result hx)]
    rcases hlinking with hkind | hkind <;> simp only [hkind] <;> exact bind_of_error hzoom
  rcases hlinking with hkind | hkind
  · rw [link_absolute hin hkind (congrArg Outcome.result hx)]
    simp only [hkind]
    exact (bind_of_ok hzoom).trans (congrArg _ (List.append_nil es))
  · rw [link_call hin hkind (congrArg Outcome.result hx)]
    simp only [hkind]
    rw [bind_of_ok hzoom, get_bind]
    dsimp only
    rcases callField (buf.u16 (r.start - first)) (buf.u16 (r.start - first + 2)) target
      (base + r.offset) with d | f
    · exact congrArg _ (List.append_nil es)
    · exact congrArg _ (List.append_nil es)

/-- What a resolver answers does not depend on whether it writes down what it is asked. -/
lemma recording_eq (resolve : Nat → Act σ Addr) (i : Nat) (asked : List Nat) (s : σ) :
    recording resolve i (asked, s) =
      ⟨(resolve i s).result, (asked ++ [i], (resolve i s).state), (resolve i s).events⟩ := rfl

/-- Writing down what a resolver is asked changes nothing else. -/
lemma apply_recording {result : Except Error Applied} {s' : σ} {es : List Event}
    (h : r.apply first base strict resolve (buf, s) = ⟨result, (out, s'), es⟩) (asked : List Nat) :
    r.apply first base strict (recording resolve) (buf, asked, s) =
      ⟨result, (out, asked ++ asks first buf.size r, s'), es⟩ := by
  unfold asks
  split_ifs with hasks
  · obtain ⟨hin, hlinking⟩ := hasks
    rw [apply_asking hin hlinking] at h ⊢
    simp only [recording_eq]
    rcases hlink : link first base strict (fun i => (resolve i s).result) buf r with e | b <;>
      rw [hlink] at h <;> cases h <;> rfl
  · obtain ⟨result', es', -, happly⟩ := apply_unasked base strict hasks
    rw [happly] at h ⊢
    cases h
    rw [List.append_nil]

/-- An entry that is applied has the outcome of its kind. -/
lemma apply_done (first : Nat) (base : Addr) (strict : Bool) (resolve : Nat → Act σ Addr) (r : Relocation)
    (buf : Bytes) (s : σ) :
    Sat (r.apply first base strict resolve) (buf, s) (fun a _ => a = r.kind.done) fun _ _ => True := by
  unfold Sat
  by_cases hasks : inside first buf.size r ∧ r.Linking
  · obtain ⟨hin, hlinking⟩ := hasks
    rw [apply_asking hin hlinking]
    rcases link first base strict (fun i => (resolve i s).result) buf r with e | out
    · trivial
    · exact (done_eq_patched.2 hlinking).symm
  · obtain ⟨result, es, hdone, happly⟩ := apply_unasked base strict hasks
    rw [happly]
    rcases result with e | a
    · trivial
    · exact (hdone a rfl).2

/-! ### One entry -/

/-- **One entry, one field.** However the application of an entry ends, the resolver has been asked for the
entry's own symbol if the field lies in the buffer and needs an address, and else for nothing. Unless the
entry is patched, the buffer is as it was. If it is, the resolver has answered and only the four bytes of the
field may have changed: an absolute word is the sum of itself and the answer, and a call keeps its opcode. -/
theorem apply_one_field {result : Except Error Applied} {s' : σ} {es : List Event}
    (h : r.apply first base strict resolve (buf, s) = ⟨result, (out, s'), es⟩) :
    (∀ asked, r.apply first base strict (recording resolve) (buf, asked, s) =
        ⟨result, (out, asked ++ asks first buf.size r, s'), es⟩) ∧
      (result ≠ .ok .patched → out = buf) ∧
      (result = .ok .patched →
        ∃ target, (resolve r.symbol s).result = .ok target ∧ Patched first r target buf out) := by
  refine ⟨apply_recording h, ?_⟩
  by_cases hasks : inside first buf.size r ∧ r.Linking
  · obtain ⟨hin, hlinking⟩ := hasks
    rw [apply_asking hin hlinking] at h
    rcases hlink : link first base strict (fun i => (resolve i s).result) buf r with e | b <;>
      rw [hlink] at h <;> cases h
    · exact ⟨fun _ => rfl, nofun⟩
    · exact ⟨fun hne => (hne rfl).elim, fun _ => patched_link hin hlinking hlink⟩
  · obtain ⟨result', es', hdone, happly⟩ := apply_unasked base strict hasks
    rw [happly] at h
    cases h
    refine ⟨fun _ => rfl, fun hpatched => ?_⟩
    obtain ⟨hin, hkind⟩ := hdone _ hpatched
    exact (hasks ⟨hin, done_eq_patched.1 hkind.symm⟩).elim

/-- A resolver that counts how often it is asked. -/
def counting (target : Addr) : Nat → Act Nat Addr := fun _ => do
  modify (· + 1)
  return target

/-- A call between other bytes: symbol 3 is asked for, once. -/
theorem apply_one_field_call :
    (⟨12, 0x30a⟩ : Relocation).apply 10 0x10000000 true (counting 0x10000101)
        (#[0x11, 0x22, 0xff, 0xf7, 0xfe, 0xff, 0x33], 4) =
      ⟨.ok .patched, (#[0x11, 0x22, 0x00, 0xf0, 0x78, 0xf8, 0x33], 5), []⟩ ∧
    (⟨12, 0x30a⟩ : Relocation).apply 10 0x10000000 true (recording (counting 0x10000101))
        (#[0x11, 0x22, 0xff, 0xf7, 0xfe, 0xff, 0x33], [], 4) =
      ⟨.ok .patched, (#[0x11, 0x22, 0x00, 0xf0, 0x78, 0xf8, 0x33], [3], 5), []⟩ ∧
    Patched 10 ⟨12, 0x30a⟩ 0x10000101 #[0x11, 0x22, 0xff, 0xf7, 0xfe, 0xff, 0x33]
      #[0x11, 0x22, 0x00, 0xf0, 0x78, 0xf8, 0x33] := by
  have happly : (⟨12, 0x30a⟩ : Relocation).apply 10 0x10000000 true (counting 0x10000101)
        (#[0x11, 0x22, 0xff, 0xf7, 0xfe, 0xff, 0x33], 4) =
      ⟨.ok .patched, (#[0x11, 0x22, 0x00, 0xf0, 0x78, 0xf8, 0x33], 5), []⟩ := rfl
  obtain ⟨hrecorded, -, hpatched⟩ := apply_one_field happly
  obtain ⟨target, htarget, hpatched⟩ := hpatched rfl
  cases htarget
  exact ⟨happly, hrecorded [], hpatched⟩

end Relocation

end FlashLink
