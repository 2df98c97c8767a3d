import Registrar.Files.System
import Registrar.Proofs.Rows

/-!
# Texts as contents and as names

Which texts can be written into a file (`Utf8.encode_eq_ok`), which can be the path of one (`Path.untaken?_eq_none`), and
that every name is the name of its text (`FileName.ofText_decode`).
-/

namespace Registrar

namespace Utf8

theorem surrogates?_eq_none {unwritten : CodePoint → Bool} {t : Text} {position : Nat} :
    surrogates? unwritten position t = none ↔ ∀ c ∈ t, unwritten c = false := by
  induction t generalizing position with
  | nil => simp [surrogates?]
  | cons c t ih =>
    rw [surrogates?, List.forall_mem_cons]
    cases hc : unwritten c with
    | true => simp
    | false => simp [ih]

theorem encode_eq_ok {t : Text} {bytes : Bytes} :
    encode t = .ok bytes ↔ (∀ c ∈ t, c.isSurrogate = false) ∧ t.flatMap encodePoint = bytes := by
  unfold encode
  rw [← surrogates?_eq_none]
  cases surrogates? CodePoint.isSurrogate 0 t <;> simp

/-- A text without surrogates has an encoding. -/
theorem exists_encode {t : Text} (h : ∀ c ∈ t, c.isSurrogate = false) : ∃ bytes, encode t = .ok bytes :=
  ⟨_, encode_eq_ok.mpr ⟨h, rfl⟩⟩

theorem encode_append {t u : Text} {bytes more : Bytes} (h : encode t = .ok bytes) (h' : encode u = .ok more) :
    encode (t ++ u) = .ok (bytes ++ more) := by
  obtain ⟨ht, rfl⟩ := encode_eq_ok.mp h
  obtain ⟨hu, rfl⟩ := encode_eq_ok.mp h'
  exact encode_eq_ok.mpr ⟨List.forall_mem_append.mpr ⟨ht, hu⟩, List.flatMap_append⟩

/-! ## Reading back what was written -/

theorem tails_succ_eq_ok {low high acc read count n : Nat} {bytes : Bytes} :
    tails low high acc read (count + 1) bytes = .ok n ↔ ∃ b rest, bytes = b :: rest ∧ low ≤ b.toNat ∧ b.toNat ≤ high ∧
      tails 0x80 0xBF (64 * acc + (b.toNat - 0x80)) (read + 1) count rest = .ok n := by
  cases bytes with
  | nil => simp [tails]
  | cons b rest =>
    rw [tails]
    split
    · next hbounds => simp [hbounds]
    · next hbounds =>
      simp only [reduceCtorEq, false_iff]
      rintro ⟨b', rest', heq, hlow, hhigh, -⟩
      obtain ⟨rfl, rfl⟩ := List.cons.inj heq
      exact hbounds ⟨hlow, hhigh⟩

theorem encodePoint_ofNat {n : Nat} (h : n.isValidChar) :
    encodePoint (.scalar (Char.ofNat n)) =
      if n ≤ 0x7F then [UInt8.ofNat n]
      else if n ≤ 0x7FF then [UInt8.ofNat (n / 64 % 32 + 192), UInt8.ofNat (n % 64 + 128)]
      else if n ≤ 0xFFFF then
        [UInt8.ofNat (n / 4096 % 16 + 224), UInt8.ofNat (n / 64 % 64 + 128), UInt8.ofNat (n % 64 + 128)]
      else
        [UInt8.ofNat (n / 262144 % 8 + 240), UInt8.ofNat (n / 4096 % 64 + 128), UInt8.ofNat (n / 64 % 64 + 128),
          UInt8.ofNat (n % 64 + 128)] := by
  have hval : (Char.ofNat n).val.toNat = n := by
    rw [Char.ofNat, dif_pos h]
    rfl
  rw [encodePoint, String.utf8EncodeChar, hval]

/-- What the first byte of a character of several bytes says, by how many bytes follow. -/
theorem lead?_cases {b : Nat} {lead : Lead} (h : lead? b = some lead) : 0x80 ≤ lead.low ∧ lead.high ≤ 0xBF ∧
    (lead.tails = 1 ∧ lead.bits = b - 0xC0 ∧ 0xC2 ≤ b ∧ b ≤ 0xDF ∨
      lead.tails = 2 ∧ lead.bits = b - 0xE0 ∧ 0xE0 ≤ b ∧ b ≤ 0xEF ∧ (b = 0xE0 → 0xA0 ≤ lead.low) ∧
        (b = 0xED → lead.high ≤ 0x9F) ∨
      lead.tails = 3 ∧ lead.bits = b - 0xF0 ∧ 0xF0 ≤ b ∧ b ≤ 0xF4 ∧ (b = 0xF0 → 0x90 ≤ lead.low) ∧
        (b = 0xF4 → lead.high ≤ 0x8F)) := by
  obtain ⟨bits, tails, low, high⟩ := lead
  dsimp only
  unfold lead? at h
  repeat' split at h
  all_goals
    simp only [Option.some.injEq, Lead.mk.injEq, reduceCtorEq] at h
  all_goals omega

theorem ofNat_eq {n : Nat} {b : UInt8} (h : n = b.toNat) : UInt8.ofNat n = b := by
  rw [h, UInt8.ofNat_toNat]

/-- A character that was read is written with the bytes that it was read from. -/
theorem encodePoint_of_readChar {b : UInt8} {rest : Bytes} {c : Char} {more : Nat} (h : readChar b rest = .ok (c, more)) :
    encodePoint (.scalar c) = b :: rest.take more := by
  unfold readChar at h
  split at h
  · next hascii =>
    obtain ⟨rfl, rfl⟩ := Prod.mk.inj (Except.ok.inj h)
    rw [encodePoint_ofNat (.inl (by omega)), if_pos (by omega), UInt8.ofNat_toNat, List.take_zero]
  · split at h
    · cases h
    · next lead hlead =>
      obtain ⟨n, htails, heq⟩ := map_eq_ok.mp h
      obtain ⟨rfl, rfl⟩ := Prod.mk.inj heq
      obtain ⟨hlow, hhigh, ⟨htwo, hbits, hb, hb'⟩ | ⟨hthree, hbits, hb, hb', hfirst, hlast⟩ |
        ⟨hfour, hbits, hb, hb', hfirst, hlast⟩⟩ := lead?_cases hlead
      · rw [htwo, tails_succ_eq_ok] at htails
        obtain ⟨b₁, rest, rfl, h₁, h₁', htails⟩ := htails
        obtain rfl := Except.ok.inj htails
        rw [htwo, encodePoint_ofNat (by unfold Nat.isValidChar; omega), if_neg (by omega), if_pos (by omega),
          ofNat_eq (b := b) (by omega), ofNat_eq (b := b₁) (by omega)]
        rfl
      · rw [hthree, tails_succ_eq_ok] at htails
        obtain ⟨b₁, rest, rfl, h₁, h₁', htails⟩ := htails
        obtain ⟨b₂, rest, rfl, h₂, h₂', htails⟩ := tails_succ_eq_ok.mp htails
        obtain rfl := Except.ok.inj htails
        rw [hthree, encodePoint_ofNat (by unfold Nat.isValidChar; omega), if_neg (by omega), if_neg (by omega),
          if_pos (by omega), ofNat_eq (b := b) (by omega), ofNat_eq (b := b₁) (by omega), ofNat_eq (b := b₂) (by omega)]
        rfl
      · rw [hfour, tails_succ_eq_ok] at htails
        obtain ⟨b₁, rest, rfl, h₁, h₁', htails⟩ := htails
        obtain ⟨b₂, rest, rfl, h₂, h₂', htails⟩ := tails_succ_eq_ok.mp htails
        obtain ⟨b₃, rest, rfl, h₃, h₃', htails⟩ := tails_succ_eq_ok.mp htails
        obtain rfl := Except.ok.inj htails
        rw [hfour, encodePoint_ofNat (by unfold Nat.isValidChar; omega), if_neg (by omega), if_neg (by omega),
          if_neg (by omega), ofNat_eq (b := b) (by omega), ofNat_eq (b := b₁) (by omega), ofNat_eq (b := b₂) (by omega),
          ofNat_eq (b := b₃) (by omega)]
        rfl

theorem toNat_ge_of_readChar {b : UInt8} {rest : Bytes} {e : Nat × Reason} (h : readChar b rest = .error e) :
    0x80 ≤ b.toNat := by
  unfold readChar at h
  split at h
  · cases h
  · omega

end Utf8

/-! ## Names -/

namespace FileName

theorem encodePoint_escape {b : UInt8} (h : 0x80 ≤ b.toNat) : encodePoint (escape b) = [b] := by
  have hlt : b.toNat < 256 := b.toNat_lt
  have hsurrogate : 0xDC00 + b.toNat - 0xD800 < 0x800 ∧ 0xD800 ≤ 0xDC00 + b.toNat := by omega
  have hbounds : 0x480 ≤ 0xDC00 + b.toNat - 0xD800 ∧ 0xDC00 + b.toNat - 0xD800 < 0x500 := by omega
  have hbyte : 0xDC00 + b.toNat - 0xD800 - 0x400 = b.toNat := by omega
  rw [escape, CodePoint.ofNat, dif_pos hsurrogate, encodePoint, escaped?]
  simp only [if_pos hbounds, hbyte, UInt8.ofNat_toNat, Option.map_some, Option.getD_some]

/-- The text of a name says the name. -/
theorem ofText_decode (name : FileName) : ofText (decode name) = name := by
  fun_induction decode name with
  | case1 => rfl
  | case2 b rest e hread ih =>
    rw [ofText, List.flatMap_cons, encodePoint_escape (Utf8.toNat_ge_of_readChar hread)]
    exact congrArg (b :: ·) ih
  | case3 b rest c more hread ih =>
    have hpoint : encodePoint (.scalar c) = b :: rest.take more := Utf8.encodePoint_of_readChar hread
    rw [ofText, List.flatMap_cons, hpoint]
    show b :: (rest.take more ++ ofText (decode (rest.drop more))) = b :: rest
    rw [ih, List.take_append_drop]

end FileName

/-! ## Paths that are taken -/

/-- Whether a failure is a refusal of the system at a path. -/
def FileError.isRefusal : FileError → Bool
  | .refused _ _ => true
  | _ => false

namespace Path

/-- Whether a code point keeps a path from the system. -/
def Barred (c : CodePoint) : Prop := FileName.isUnsaid c = true ∨ c = .scalar (Char.ofNat 0)

instance (c : CodePoint) : Decidable (Barred c) := inferInstanceAs (Decidable (_ ∨ _))

variable {p : Path}

theorem untaken?_eq_none : p.untaken? = none ↔ ∀ c ∈ p.render, ¬ Barred c := by
  have hsplit : (∀ c ∈ p.render, ¬ Barred c) ↔
      (∀ c ∈ p.render, FileName.isUnsaid c = false) ∧ .scalar (Char.ofNat 0) ∉ p.render := by
    simp only [Barred, not_or, Bool.not_eq_true]
    exact ⟨fun h => ⟨fun c hc => (h c hc).1, fun hzero => (h _ hzero).2 rfl⟩,
      fun h c hc => ⟨h.1 c hc, fun hzero => h.2 (hzero ▸ hc)⟩⟩
  have hunsaid : Utf8.surrogates? FileName.isUnsaid 0 p.render = none ↔
      ∀ c ∈ p.render, FileName.isUnsaid c = false := Utf8.surrogates?_eq_none
  rw [hsplit, ← hunsaid, untaken?, FileName.encode]
  cases Utf8.surrogates? FileName.isUnsaid 0 p.render <;> simp

theorem isRefusal_of_untaken? {e : FileError} (h : p.untaken? = some e) : e.isRefusal = false := by
  unfold untaken? at h
  split at h
  · exact Option.some.inj h ▸ rfl
  · split at h
    · exact Option.some.inj h ▸ rfl
    · cases h

theorem Barred.ne {c : CodePoint} (h : Barred c) : c ≠ slash ∧ c ≠ .scalar '.' := by
  have hslash : ¬ Barred slash := by decide
  have hdot : ¬ Barred (.scalar '.') := by decide
  exact ⟨fun hc => hslash (hc ▸ h), fun hc => hdot (hc ▸ h)⟩

theorem mem_intercalate_slash {c : CodePoint} (hc : c ≠ slash) {names : List Text} :
    c ∈ List.intercalate [slash] names ↔ ∃ name ∈ names, c ∈ name := by
  induction names with
  | nil => simp [List.intercalate]
  | cons name names ih =>
    cases names with
    | nil => simp [List.intercalate_singleton]
    | cons next names =>
      rw [List.intercalate_cons_cons, List.mem_append, List.mem_append, ih, List.mem_singleton]
      simp [hc]

/-- What keeps a path from the system stands in a name. -/
theorem mem_render_iff {c : CodePoint} (hc : Barred c) : c ∈ p.render ↔ ∃ name ∈ p.names, c ∈ name := by
  obtain ⟨anchor, names⟩ := p
  obtain ⟨hslash, hdot⟩ := hc.ne
  have hanchor : c ∉ anchor.render := by
    cases anchor with
    | current => exact List.not_mem_nil
    | root => exact fun hmem => hslash (List.mem_singleton.mp hmem)
    | doubleRoot => exact fun hmem => hslash (by simpa [Anchor.render, Text.ofString, slash] using hmem)
  unfold render
  split
  · next hnames =>
    have hnot : c ∉ ("." : Text) := fun hmem => hdot (List.mem_singleton.mp hmem)
    simp only at hnames
    simp [hnames, hnot]
  · rw [List.mem_append, mem_intercalate_slash hslash, or_iff_right hanchor]

/-- A path is taken if all its names are names of one that is taken. -/
theorem untaken?_of_subset {q : Path} (hnames : p.names ⊆ q.names) (h : q.untaken? = none) : p.untaken? = none := by
  refine untaken?_eq_none.mpr fun c hc hbarred => ?_
  obtain ⟨name, hname, hc⟩ := (mem_render_iff hbarred).mp hc
  have hmem : c ∈ q.render := (mem_render_iff hbarred).mpr ⟨name, hnames hname, hc⟩
  exact untaken?_eq_none.mp h c hmem hbarred

/-- The directory of a path that is taken is taken. -/
theorem untaken?_parent (h : p.untaken? = none) : p.parent.untaken? = none :=
  untaken?_of_subset (List.dropLast_subset p.names) h

theorem exists_intercalate_append (above : List Text) {names : List Text} (h : names ≠ []) :
    ∃ start, List.intercalate [slash] (above ++ names) = start ++ List.intercalate [slash] names := by
  induction above with
  | nil => exact ⟨[], rfl⟩
  | cons name above ih =>
    obtain ⟨start, hstart⟩ := ih
    obtain ⟨next, rest, hnext⟩ := List.exists_cons_of_ne_nil (List.append_ne_nil_of_right_ne_nil above h)
    refine ⟨name ++ [slash] ++ start, ?_⟩
    rw [List.cons_append, hnext, List.intercalate_cons_cons, ← hnext, hstart]
    simp

/-- A path takes no more bytes than the one that it is from the root. -/
theorem length_ofText_render_le (names : List Text) (hanchor : p.isAbsolute = false) :
    (FileName.ofText p.render).length ≤ (FileName.ofText (Path.mk .root (names ++ p.names)).render).length := by
  obtain ⟨anchor, names'⟩ := p
  cases anchor with
  | current =>
    cases names' with
    | nil =>
      show 1 ≤ (FileName.ofText (("/" : Text) ++ List.intercalate [slash] (names ++ []))).length
      rw [FileName.ofText, List.flatMap_append, List.length_append]
      have hslash : (List.flatMap FileName.encodePoint ("/" : Text)).length = 1 := by decide
      omega
    | cons name rest =>
      obtain ⟨start, hstart⟩ := exists_intercalate_append names (List.cons_ne_nil name rest)
      show (FileName.ofText ([] ++ List.intercalate [slash] (name :: rest))).length ≤
        (FileName.ofText (("/" : Text) ++ List.intercalate [slash] (names ++ name :: rest))).length
      rw [hstart]
      simp only [FileName.ofText, List.nil_append, List.flatMap_append, List.length_append]
      omega
  | _ => cases hanchor

end Path

end Registrar
