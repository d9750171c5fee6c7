import Stencil.Engine

/-!
# Fingerprints

What a cache key is made from says everything about it. The bytes that are hashed for a key can be
taken apart again into the settings and the source, since settings hold no zero character; a
fingerprint can be taken apart into its three parts, since none of them holds a semicolon. Main
statements: `hashedBytes_inj` and `Engine.fingerprint_inj`, and together what the bytes of a cache
key tell (`Engine.hashedBytes_fingerprint_eq_iff`).
-/

namespace Stencil

open Stencil.Text (append_mark_inj)

/-! ## Digits -/

/-- Hexadecimal digits tell the numbers below sixteen apart. -/
theorem digitChar_inj {m n : Nat} (hm : m < 16) (hn : n < 16)
    (h : m.digitChar = n.digitChar) : m = n := by
  have hall : ∀ i < 16, ∀ j < 16, Nat.digitChar i = Nat.digitChar j → i = j := by decide
  exact hall m hm n hn h

/-- The digits of a number tell it, in a base up to sixteen. -/
theorem toDigits_inj {base m n : Nat} (hbase : 1 < base) (hbase' : base ≤ 16)
    (h : Nat.toDigits base m = Nat.toDigits base n) : m = n := by
  induction m using Nat.strongRecOn generalizing n with
  | ind m ih =>
    have hm : m % base < base := Nat.mod_lt m (by omega)
    have hn : n % base < base := Nat.mod_lt n (by omega)
    rw [Nat.toDigits_eq_if hbase, Nat.toDigits_eq_if (n := n) hbase] at h
    by_cases hmb : m < base
    · by_cases hnb : n < base
      · rw [if_pos hmb, if_pos hnb] at h
        exact digitChar_inj (by omega) (by omega) (List.cons.inj h).1
      · rw [if_pos hmb, if_neg hnb] at h
        rw [← List.nil_append [m.digitChar]] at h
        exact absurd (List.append_inj' h rfl).1.symm Nat.toDigits_ne_nil
    · by_cases hnb : n < base
      · rw [if_neg hmb, if_pos hnb] at h
        rw [← List.nil_append [n.digitChar]] at h
        exact absurd (List.append_inj' h rfl).1 Nat.toDigits_ne_nil
      · -- the last digits are the remainders, and the others those of the quotients
        rw [if_neg hmb, if_neg hnb] at h
        obtain ⟨hfront, hlast⟩ := List.append_inj' h rfl
        have hlast := digitChar_inj (by omega) (by omega) (List.cons.inj hlast).1
        have hlt : m / base < m := Nat.div_lt_self (by omega) hbase
        have hfront := ih (m / base) hlt hfront
        rw [← Nat.div_add_mod m base, ← Nat.div_add_mod n base, hfront, hlast]

/-- What stands among the digits of a number is a digit. -/
theorem exists_digitChar_of_mem_toDigits {base n : Nat} {c : Char} (hbase : 1 < base)
    (h : c ∈ Nat.toDigits base n) : ∃ d, c = Nat.digitChar d := by
  induction n using Nat.strongRecOn with
  | ind n ih =>
    rw [Nat.toDigits_eq_if hbase] at h
    split at h
    · exact ⟨n, List.mem_singleton.1 h⟩
    · next hn =>
      rcases List.mem_append.1 h with h | h
      · exact ih (n / base) (Nat.div_lt_self (by omega) hbase) h
      · exact ⟨n % base, List.mem_singleton.1 h⟩

/-- Bytes written in hexadecimal can be read back. -/
theorem hex_inj {bytes bytes' : List UInt8}
    (h : Digest.Sha256.hex bytes = Digest.Sha256.hex bytes') : bytes = bytes' := by
  replace h := String.ofList_inj.1 h
  induction bytes generalizing bytes' with
  | nil =>
    cases bytes' with
    | nil => rfl
    | cons b bs => cases h
  | cons a as ih =>
    cases bytes' with
    | nil => cases h
    | cons b bs =>
      simp only [List.flatMap_cons, Digest.Sha256.hexByte, List.cons_append, List.nil_append,
        List.cons.injEq] at h
      obtain ⟨hhigh, hlow, hrest⟩ := h
      have ha := a.toNat_lt
      have hb := b.toNat_lt
      have hhigh := digitChar_inj (by omega) (by omega) hhigh
      have hlow := digitChar_inj (by omega) (by omega) hlow
      have hab : a.toNat = b.toNat := by omega
      rw [UInt8.toNat_inj.1 hab, ih hrest]

/-! ## Plain texts -/

/-- A character is neither of the two marks: the semicolon between the parts of a fingerprint, and
the zero character behind it. -/
def isPlain (c : Char) : Bool :=
  c != ';' && c != '\x00'

/-- A text in which no mark stands. -/
def Plain (cs : List Char) : Prop :=
  cs.all isPlain = true

/-- Whether a text is plain can be seen. -/
instance (cs : List Char) : Decidable (Plain cs) :=
  inferInstanceAs (Decidable (cs.all isPlain = true))

namespace Plain

variable {cs ds : List Char}

/-- Plain texts in a row are plain. -/
theorem append (hc : Plain cs) (hd : Plain ds) : Plain (cs ++ ds) := by
  unfold Plain at *
  rw [List.all_append, hc, hd]
  rfl

/-- No semicolon stands in a plain text. -/
theorem semicolon_notMem (h : Plain cs) : ';' ∉ cs := by
  intro hmem
  exact absurd (List.all_eq_true.1 h ';' hmem) (by decide)

/-- No zero character stands in a plain text. -/
theorem nul_notMem (h : Plain cs) : '\x00' ∉ cs := by
  intro hmem
  exact absurd (List.all_eq_true.1 h '\x00' hmem) (by decide)

end Plain

/-- Numbers are written plainly. -/
theorem plain_toDigits {base : Nat} (hbase : 1 < base) (n : Nat) :
    Plain (Nat.toDigits base n) := by
  refine List.all_eq_true.2 fun c h => ?_
  obtain ⟨d, rfl⟩ := exists_digitChar_of_mem_toDigits hbase h
  have hsemicolon : d.digitChar ≠ ';' := Nat.digitChar_ne ';' (by decide)
  have hnul : d.digitChar ≠ '\x00' := Nat.digitChar_ne '\x00' (by decide)
  rw [isPlain, bne_iff_ne.2 hsemicolon, bne_iff_ne.2 hnul]
  rfl

/-! ## Hashed bytes -/

/-- The bytes that are left of a list of bytes, behind those that have been taken. -/
theorem toList_loop (bytes : ByteArray) (i : Nat) (taken : List UInt8) :
    ByteArray.toList.loop bytes i taken = taken.reverse ++ bytes.data.toList.drop i := by
  fun_induction ByteArray.toList.loop bytes i taken with
  | case1 i taken hi ih =>
    have hlength : i < bytes.data.toList.length := hi
    rw [ih, List.drop_eq_getElem_cons hlength, List.reverse_cons, List.append_assoc]
    simp [ByteArray.get!, hi]
  | case2 i taken hi =>
    have hlength : bytes.data.toList.length ≤ i := Nat.le_of_not_lt hi
    rw [List.drop_eq_nil_of_le hlength, List.append_nil]

/-- The bytes of a text one after the other. -/
theorem toList_toUTF8 (s : String) : s.toUTF8.toList = s.toUTF8.data.toList := by
  rw [ByteArray.toList, toList_loop, List.drop_zero]
  rfl

/-- The hashed bytes are those of one text: the settings, a zero character, and the source. -/
theorem hashedBytes_eq (settings source : String) :
    hashedBytes settings source = (settings ++ "\x00" ++ source).toUTF8.data.toList := by
  have hzero : "\x00".toByteArray.data.toList = [0] := by decide
  rw [hashedBytes, toList_toUTF8, toList_toUTF8]
  simp [String.toByteArray_append, hzero]

/-- The hashed bytes tell the settings and the source, if no zero character stands in the
settings. -/
theorem hashedBytes_inj {settings settings' source source' : String}
    (hs : '\x00' ∉ settings.toList) (hs' : '\x00' ∉ settings'.toList)
    (h : hashedBytes settings source = hashedBytes settings' source') :
    settings = settings' ∧ source = source' := by
  rw [hashedBytes_eq, hashedBytes_eq] at h
  have htext := String.toByteArray_inj.1 (ByteArray.ext (Array.toList_inj.1 h))
  have hchars := congrArg String.toList htext
  simp only [String.toList_append, List.append_assoc] at hchars
  obtain ⟨hsettings, hsource⟩ := append_mark_inj hchars hs hs'
  exact ⟨String.toList_inj.1 hsettings, String.toList_inj.1 hsource⟩

/-- Equal cache keys have equal digests behind them. -/
theorem digest_eq_of_cacheKey_eq {settings settings' source source' : String}
    (h : cacheKey settings source = cacheKey settings' source') :
    Digest.Sha256.digest (hashedBytes settings source) =
      Digest.Sha256.digest (hashedBytes settings' source') :=
  hex_inj h

/-! ## Fingerprints -/

namespace Engine

/-- What a fingerprint tells of the escaper: the policy of the settings, or the identity of the
escaper that replaced it. -/
def escaping (e : Engine) : EscapePolicy ⊕ Nat :=
  if e.customEscaper then .inr e.escaper.id else .inl e.config.escape

/-- How a fingerprint writes the escaper. -/
def escapingName : EscapePolicy ⊕ Nat → String
  | .inl policy => escapeName policy
  | .inr id => "custom@" ++ hexadecimal id

/-- The first part of a fingerprint. -/
def escapingPart (e : Engine) : List Char :=
  "escape=".toList ++ (escapingName e.escaping).toList

/-- The second part of a fingerprint. -/
def validationPart (e : Engine) : List Char :=
  "validation=".toList ++ (validationName e.config.keyValidation).toList

/-- The last part of a fingerprint. -/
def depthPart (e : Engine) : List Char :=
  "max_depth=".toList ++ Nat.toDigits 10 e.config.maxDepth

/-- A fingerprint part by part. -/
theorem toList_fingerprint (e : Engine) :
    e.fingerprint.toList = e.escapingPart ++ ';' :: (e.validationPart ++ ';' :: e.depthPart) := by
  have hescape : (if e.customEscaper then "custom@" ++ hexadecimal e.escaper.id
      else escapeName e.config.escape) = escapingName e.escaping := by
    unfold escaping
    split <;> rfl
  unfold fingerprint escapingPart validationPart depthPart Node.decimal
  rw [hescape]
  simp

/-! ### The parts are plain -/

/-- The first part is plain. -/
theorem plain_escapingPart (e : Engine) : Plain e.escapingPart := by
  have hname : Plain (escapingName e.escaping).toList := by
    rcases e.escaping with p | i
    · cases p <;> decide
    · have hcustom : Plain "custom@".toList := by decide
      have hnumber : Plain (hexadecimal i).toList := by
        rw [hexadecimal, String.toList_ofList]
        exact plain_toDigits (by decide) i
      rw [escapingName, String.toList_append]
      exact hcustom.append hnumber
  have hlabel : Plain "escape=".toList := by decide
  exact hlabel.append hname

/-- The second part is plain. -/
theorem plain_validationPart (e : Engine) : Plain e.validationPart := by
  have hname : Plain (validationName e.config.keyValidation).toList := by
    cases e.config.keyValidation <;> decide
  have hlabel : Plain "validation=".toList := by decide
  exact hlabel.append hname

/-- The last part is plain. -/
theorem plain_depthPart (e : Engine) : Plain e.depthPart := by
  have hlabel : Plain "max_depth=".toList := by decide
  exact hlabel.append (plain_toDigits (by decide) _)

/-- No zero character stands in a fingerprint. -/
theorem nul_notMem_fingerprint (e : Engine) : '\x00' ∉ e.fingerprint.toList := by
  rw [toList_fingerprint]
  simp [e.plain_escapingPart.nul_notMem, e.plain_validationPart.nul_notMem,
    e.plain_depthPart.nul_notMem]

/-! ### The parts tell what they are made from -/

/-- The names of escapers tell them apart. -/
theorem escapingName_inj {a b : EscapePolicy ⊕ Nat} (h : escapingName a = escapingName b) :
    a = b := by
  have hchars := congrArg String.toList h
  rcases a with p | i
  · rcases b with q | j
    · revert h
      cases p <;> cases q <;> decide
    · cases p <;> simp [escapingName, escapeName] at hchars
  · rcases b with q | j
    · cases q <;> simp [escapingName, escapeName] at hchars
    · simp only [escapingName, hexadecimal, String.toList_append, String.toList_ofList,
        List.append_cancel_left_eq] at hchars
      rw [toDigits_inj (by decide) (by decide) hchars]

/-- The names of validations tell them apart. -/
theorem validationName_inj {a b : KeyValidation} (h : validationName a = validationName b) :
    a = b := by
  revert h
  cases a <;> cases b <;> decide

/-- **Fingerprints tell engines apart.** Engines with one fingerprint escape alike by its account,
accept the same keys and have the same ceiling. -/
theorem fingerprint_inj {e e' : Engine} (h : e.fingerprint = e'.fingerprint) :
    e.escaping = e'.escaping ∧ e.config.keyValidation = e'.config.keyValidation ∧
      e.config.maxDepth = e'.config.maxDepth := by
  have hchars := congrArg String.toList h
  rw [toList_fingerprint, toList_fingerprint] at hchars
  -- the semicolons can only be those between the parts
  obtain ⟨hescaping, hrest⟩ := append_mark_inj hchars e.plain_escapingPart.semicolon_notMem
    e'.plain_escapingPart.semicolon_notMem
  obtain ⟨hvalidation, hdepth⟩ := append_mark_inj hrest e.plain_validationPart.semicolon_notMem
    e'.plain_validationPart.semicolon_notMem
  have hescaping := String.toList_inj.1 (List.append_cancel_left hescaping)
  have hvalidation := String.toList_inj.1 (List.append_cancel_left hvalidation)
  have hdepth := List.append_cancel_left hdepth
  exact ⟨escapingName_inj hescaping, validationName_inj hvalidation,
    toDigits_inj (by decide) (by decide) hdepth⟩

/-! ### Cache keys -/

/-- A fingerprint tells nothing else of an engine. -/
theorem fingerprint_congr {e e' : Engine} (hescaping : e.escaping = e'.escaping)
    (hvalidation : e.config.keyValidation = e'.config.keyValidation)
    (hdepth : e.config.maxDepth = e'.config.maxDepth) : e.fingerprint = e'.fingerprint := by
  apply String.toList_inj.1
  rw [toList_fingerprint, toList_fingerprint]
  unfold escapingPart validationPart depthPart
  rw [hescaping, hvalidation, hdepth]

/-- Two engines escape alike by the account of their fingerprints if both do what one policy says, or
if copies of one escaper have replaced the escapers of both. -/
theorem escaping_eq_iff (e e' : Engine) :
    e.escaping = e'.escaping ↔
      e.customEscaper = false ∧ e'.customEscaper = false ∧ e.config.escape = e'.config.escape ∨
        e.customEscaper = true ∧ e'.customEscaper = true ∧ e.escaper.id = e'.escaper.id := by
  unfold escaping
  cases e.customEscaper <;> cases e'.customEscaper <;> simp

/-- **Cache keys separate what they must.** A cache key is the digest of some bytes. The bytes of two
engines for two sources, whatever characters these hold, are equal exactly if the sources are, the
engines accept the same keys and have the same ceiling, and either neither escaper was replaced and
the policies are equal, or both were replaced by copies of one. The capacity of the cache plays no
part, nor does the policy of an engine whose escaper was replaced. -/
theorem hashedBytes_fingerprint_eq_iff (e e' : Engine) (source source' : String) :
    (e.keyOf source = Digest.Sha256.hex (Digest.Sha256.digest (hashedBytes e.fingerprint source))) ∧
    (hashedBytes e.fingerprint source = hashedBytes e'.fingerprint source' ↔
      source = source' ∧ e.config.keyValidation = e'.config.keyValidation ∧
        e.config.maxDepth = e'.config.maxDepth ∧
        (e.customEscaper = false ∧ e'.customEscaper = false ∧ e.config.escape = e'.config.escape ∨
          e.customEscaper = true ∧ e'.customEscaper = true ∧ e.escaper.id = e'.escaper.id)) ∧
    (∀ capacity : Option Nat,
      hashedBytes (fingerprint { e with config := { e.config with cacheCapacity := capacity } })
        source = hashedBytes e.fingerprint source) ∧
    ∀ (policy : EscapePolicy) (escaper : Escaper),
      hashedBytes (withEscaper { e with config := { e.config with escape := policy } }
        escaper).fingerprint source = hashedBytes (e.withEscaper escaper).fingerprint source := by
  refine ⟨rfl, ?_, ?_, ?_⟩
  · rw [← escaping_eq_iff]
    constructor
    · intro hbytes
      obtain ⟨hfingerprint, hsource⟩ := hashedBytes_inj e.nul_notMem_fingerprint
        e'.nul_notMem_fingerprint hbytes
      obtain ⟨hescaping, hvalidation, hdepth⟩ := fingerprint_inj hfingerprint
      exact ⟨hsource, hvalidation, hdepth, hescaping⟩
    · rintro ⟨rfl, hvalidation, hdepth, hescaping⟩
      rw [fingerprint_congr hescaping hvalidation hdepth]
  · intro capacity
    exact congrArg (hashedBytes · source) (fingerprint_congr rfl rfl rfl)
  · intro policy escaper
    exact congrArg (hashedBytes · source) (fingerprint_congr rfl rfl rfl)

end Engine

end Stencil
