import Antimoney.Db.Schema
import Mathlib.Data.List.Basic

/-!
# Token encryption

`internal/plaid/crypto.go`, with AES-GCM as ideal authenticated encryption, and the key rotation
of `decryptToken` in `internal/plaid/service.go`.

* `decryptToken_plaintext`, `decryptToken_failed`: what it returns was sealed, and what it refuses
  no configured key opens.
* `tokenAAD_injective`: the additional data names its book and item.
* **`decryptToken_rotation`**: which ciphertexts yield their token, and which of them are stale.
-/

namespace Antimoney

/-- `encrypt`, with the nonce it draws. -/
def encrypt (key : Key) (nonce : Nonce) (plaintext : Token) (aad : List Char) : Ciphertext :=
  ⟨key, nonce, aad, plaintext⟩

/-- `decrypt`: only the key, nonce and additional data it was sealed with open a ciphertext. -/
def decrypt (key : Key) (ciphertext : Ciphertext) (nonce : Nonce) (aad : List Char) :
    Option Token :=
  if ciphertext.key = key ∧ ciphertext.nonce = nonce ∧ ciphertext.aad = aad then
    some ciphertext.plaintext
  else none

/-- The configuration of `PlaidService`: `encKeys`, which is not empty, and
`allowLegacyTokens`. -/
structure TokenConfig where
  primary : Key
  retired : List Key
  allowLegacyTokens : Bool
  deriving DecidableEq, Repr

def TokenConfig.encKeys (cfg : TokenConfig) : List Key := cfg.primary :: cfg.retired

/-- The hexadecimal text of a UUID. -/
def Guid.chars (g : Guid) : List Char := Nat.toDigits 16 g

/-- `tokenAAD`. -/
def tokenAAD (book : Guid) (itemId : String) : List Char := book.chars ++ '|' :: itemId.toList

/-- `encryptToken`: under the first key. -/
def encryptToken (cfg : TokenConfig) (book : Guid) (itemId : String) (nonce : Nonce)
    (token : Token) : Ciphertext :=
  encrypt cfg.primary nonce token (tokenAAD book itemId)

inductive DecryptErr where
  | legacyTokenNeedsFlag
  | decryptFailed
  deriving DecidableEq, Repr

/-- The first loop of `decryptToken`: the canonical additional data, key by key from the one at
index `i`; stale unless it is the first. -/
def decryptWithKeys (ciphertext : Ciphertext) (nonce : Nonce) (aad : List Char) :
    Nat → List Key → Option (Token × Bool)
  | _, [] => none
  | i, key :: keys =>
    match decrypt key ciphertext nonce aad with
    | some token => some (token, decide (0 < i))
    | none => decryptWithKeys ciphertext nonce aad (i + 1) keys

/-- `decryptToken`: the token, and whether the caller should re-seal it. -/
def decryptToken (cfg : TokenConfig) (book : Guid) (itemId : String) (ciphertext : Ciphertext)
    (nonce : Nonce) : Except DecryptErr (Token × Bool) :=
  match decryptWithKeys ciphertext nonce (tokenAAD book itemId) 0 cfg.encKeys with
  | some r => .ok r
  | none =>
    match cfg.encKeys.findSome? fun key => decrypt key ciphertext nonce [] with
    | some token =>
      if cfg.allowLegacyTokens then .ok (token, true) else .error .legacyTokenNeedsFlag
    | none => .error .decryptFailed

/-- A ciphertext with its nonce opens to a token under the additional data of its row. -/
def Opens (book : Guid) (itemId : String) (ciphertext : Ciphertext) (nonce : Nonce)
    (token : Token) : Prop :=
  ∃ key, decrypt key ciphertext nonce (tokenAAD book itemId) = some token

theorem decrypt_eq_some {key : Key} {c : Ciphertext} {nonce : Nonce} {aad : List Char}
    {token : Token} :
    decrypt key c nonce aad = some token ↔
      (c.key = key ∧ c.nonce = nonce ∧ c.aad = aad) ∧ c.plaintext = token := by
  unfold decrypt
  split
  · simp_all
  · simp_all

/-- **Round trip**: what `encrypt` seals opens under its own key, nonce and additional data. -/
@[simp] theorem decrypt_encrypt (key : Key) (nonce : Nonce) (token : Token) (aad : List Char) :
    decrypt key (encrypt key nonce token aad) nonce aad = some token := by
  simp [decrypt, encrypt]

theorem opens_encryptToken (cfg : TokenConfig) (book : Guid) (itemId : String) (nonce : Nonce)
    (token : Token) : Opens book itemId (encryptToken cfg book itemId nonce token) nonce token :=
  ⟨cfg.primary, decrypt_encrypt _ _ _ _⟩

/-- A ciphertext opens to one token. -/
theorem Opens.unique {book : Guid} {itemId : String} {c : Ciphertext} {nonce : Nonce}
    {t t' : Token} (h : Opens book itemId c nonce t) (h' : Opens book itemId c nonce t') :
    t = t' := by
  obtain ⟨_, h⟩ := h
  obtain ⟨_, h'⟩ := h'
  rw [decrypt_eq_some] at h h'
  exact h.2.symm.trans h'.2

theorem decryptWithKeys_opens {c : Ciphertext} {nonce : Nonce} {aad : List Char} {i : Nat}
    {keys : List Key} {r : Token × Bool} (h : decryptWithKeys c nonce aad i keys = some r) :
    ∃ key ∈ keys, decrypt key c nonce aad = some r.1 := by
  induction keys generalizing i with
  | nil => exact absurd h (by simp [decryptWithKeys])
  | cons key keys ih =>
    unfold decryptWithKeys at h
    cases hd : decrypt key c nonce aad with
    | some token =>
      rw [hd] at h
      obtain rfl := Option.some.inj h
      exact ⟨key, List.mem_cons_self, hd⟩
    | none =>
      rw [hd] at h
      obtain ⟨k, hk, hr⟩ := ih h
      exact ⟨k, .tail _ hk, hr⟩

theorem decryptWithKeys_none {c : Ciphertext} {nonce : Nonce} {aad : List Char} {i : Nat}
    {keys : List Key} (h : decryptWithKeys c nonce aad i keys = none) :
    ∀ key ∈ keys, decrypt key c nonce aad = none := by
  induction keys generalizing i with
  | nil => exact fun _ h => absurd h (by simp)
  | cons key keys ih =>
    unfold decryptWithKeys at h
    cases hd : decrypt key c nonce aad with
    | some token =>
      rw [hd] at h
      exact absurd h (by simp)
    | none =>
      rw [hd] at h
      intro k hk
      rcases List.mem_cons.mp hk with rfl | hk
      · exact hd
      · exact ih h k hk

/-- A token `decryptToken` returns is one that a configured key opens. -/
theorem decryptToken_opens {cfg : TokenConfig} {book : Guid} {itemId : String} {c : Ciphertext}
    {nonce : Nonce} {r : Token × Bool} (h : decryptToken cfg book itemId c nonce = .ok r) :
    ∃ key ∈ cfg.encKeys, ∃ aad, decrypt key c nonce aad = some r.1 := by
  unfold decryptToken at h
  split at h
  · rename_i r' hr
    obtain rfl := Except.ok.inj h
    obtain ⟨key, hk, hd⟩ := decryptWithKeys_opens hr
    exact ⟨key, hk, _, hd⟩
  · split at h
    · rename_i token ht
      obtain ⟨key, hk, hd⟩ := List.exists_of_findSome?_eq_some ht
      split at h
      · obtain rfl := Except.ok.inj h
        exact ⟨key, hk, [], hd⟩
      · exact absurd h (by simp)
    · exact absurd h (by simp)

/-- **`decryptToken` never invents a token**: what it returns is what was sealed. -/
theorem decryptToken_plaintext {cfg : TokenConfig} {book : Guid} {itemId : String} {c : Ciphertext}
    {nonce : Nonce} {r : Token × Bool} (h : decryptToken cfg book itemId c nonce = .ok r) :
    r.1 = c.plaintext := by
  obtain ⟨key, -, aad, hd⟩ := decryptToken_opens h
  exact (decrypt_eq_some.mp hd).2.symm

/-- Where it fails, no configured key opens the token, in either format. -/
theorem decryptToken_failed {cfg : TokenConfig} {book : Guid} {itemId : String} {c : Ciphertext}
    {nonce : Nonce} (h : decryptToken cfg book itemId c nonce = .error .decryptFailed) :
    ∀ key ∈ cfg.encKeys, decrypt key c nonce (tokenAAD book itemId) = none ∧
      decrypt key c nonce [] = none := by
  unfold decryptToken at h
  split at h
  · exact absurd h (by simp)
  · rename_i hcanon
    split at h
    · split at h <;> exact absurd h (by simp)
    · rename_i hlegacy
      exact fun key hk =>
        ⟨decryptWithKeys_none hcanon key hk, List.findSome?_eq_none_iff.mp hlegacy key hk⟩

/-! ## The additional data -/

theorem Guid.digitChar_injOn {m n : Nat} (hm : m < 16) (hn : n < 16)
    (h : m.digitChar = n.digitChar) : m = n := by
  have hall : ∀ m < 16, ∀ n < 16, m.digitChar = n.digitChar → m = n := by decide
  exact hall m hm n hn h

theorem Guid.chars_injective {g h : Guid} (e : g.chars = h.chars) : g = h := by
  unfold Guid.chars at e
  induction g using Nat.strongRecOn generalizing h with
  | ind g ih =>
    rw [Nat.toDigits_eq_if (by decide), Nat.toDigits_eq_if (b := 16) (n := h) (by decide)] at e
    by_cases hg : g < 16 <;> by_cases hh : h < 16
    · rw [if_pos hg, if_pos hh] at e
      exact Guid.digitChar_injOn hg hh (List.cons.inj e).1
    · rw [if_pos hg, if_neg hh] at e
      exact absurd (congrArg List.length e) (by simp)
    · rw [if_neg hg, if_pos hh] at e
      exact absurd (congrArg List.length e) (by simp)
    · rw [if_neg hg, if_neg hh] at e
      obtain ⟨hdiv, hmod⟩ := List.append_inj' e rfl
      have hdiv := ih (g / 16) (by omega) hdiv
      have hmod := Guid.digitChar_injOn (Nat.mod_lt g (by decide)) (Nat.mod_lt h (by decide))
        (List.cons.inj hmod).1
      rw [← Nat.div_add_mod g 16, ← Nat.div_add_mod h 16, hdiv, hmod]

/-- The separator is no hexadecimal digit. -/
theorem Guid.separator_notMem (g : Guid) : '|' ∉ g.chars := by
  have hdigit : ∀ n < 16, '|' ≠ Nat.digitChar n := by decide
  unfold Guid.chars
  induction g using Nat.strongRecOn with
  | ind g ih =>
    rw [Nat.toDigits_eq_if (by decide)]
    by_cases hg : g < 16
    · simp [hg, hdigit g hg]
    · rw [if_neg hg, List.mem_append]
      rintro (h | h)
      · exact ih (g / 16) (by omega) h
      · exact hdigit (g % 16) (Nat.mod_lt g (by decide)) (List.mem_singleton.mp h)

/-- What stands before the first separator, and after it. -/
theorem split_separator {α : Type} {a : α} {x y z w : List α} (hx : a ∉ x) (hy : a ∉ y)
    (h : x ++ a :: z = y ++ a :: w) : x = y ∧ z = w := by
  rcases List.append_eq_append_iff.mp h with ⟨c, rfl, hc⟩ | ⟨c, rfl, hc⟩ <;> cases c with
  | nil => simp_all
  | cons b c =>
    obtain ⟨rfl, -⟩ := List.cons.inj hc
    simp at hx hy

/-- **The additional data names its book and item.** -/
theorem tokenAAD_injective {book book' : Guid} {itemId itemId' : String}
    (h : tokenAAD book itemId = tokenAAD book' itemId') : book = book' ∧ itemId = itemId' := by
  obtain ⟨hbook, hitem⟩ := split_separator book.separator_notMem book'.separator_notMem h
  exact ⟨Guid.chars_injective hbook, String.toList_inj.mp hitem⟩

theorem tokenAAD_ne_nil (book : Guid) (itemId : String) : tokenAAD book itemId ≠ [] := by
  simp [tokenAAD]

/-! ## Key rotation -/

section Rotation

variable {cfg : TokenConfig} {book : Guid} {itemId : String} {key : Key} {nonce n : Nonce}
  {token : Token} {aad : List Char}

theorem decrypt_encrypt_ne {key' : Key} {aad' : List Char} (h : key ≠ key' ∨ aad ≠ aad') :
    decrypt key' (encrypt key nonce token aad) n aad' = none := by
  unfold decrypt encrypt
  rw [if_neg]
  rintro ⟨hk, -, ha⟩
  exact h.elim (fun h => h hk) fun h => h ha

/-- The first loop opens what a key in the list sealed, and is stale unless that is the first. -/
theorem decryptWithKeys_encrypt {i : Nat} {keys : List Key} (h : key ∈ keys) :
    decryptWithKeys (encrypt key nonce token aad) nonce aad i keys =
      some (token, decide (0 < i + keys.idxOf key)) := by
  induction keys generalizing i with
  | nil => exact absurd h (by simp)
  | cons k keys ih =>
    unfold decryptWithKeys
    by_cases hk : key = k
    · subst hk
      simp
    · rw [decrypt_encrypt_ne (.inl hk)]
      have hmem : key ∈ keys := (List.mem_cons.mp h).resolve_left hk
      have hstale : 0 < i + (k :: keys).idxOf key ↔ 0 < i + 1 + keys.idxOf key := by
        rw [List.idxOf_cons_ne keys (Ne.symm hk)]
        omega
      simp only [ih hmem, hstale]

/-- It opens nothing else. -/
theorem decryptWithKeys_encrypt_none {aad' : List Char} {i : Nat} {keys : List Key}
    (h : key ∉ keys ∨ aad ≠ aad') :
    decryptWithKeys (encrypt key nonce token aad) n aad' i keys = none := by
  induction keys generalizing i with
  | nil => rfl
  | cons k keys ih =>
    unfold decryptWithKeys
    rw [decrypt_encrypt_ne (h.imp_left List.ne_of_not_mem_cons)]
    exact ih (h.imp_left List.not_mem_of_not_mem_cons)

/-- The canonical format: the token, stale unless the first key sealed it. -/
theorem decryptToken_canonical (h : key ∈ cfg.encKeys) :
    decryptToken cfg book itemId (encrypt key nonce token (tokenAAD book itemId)) nonce =
      .ok (token, decide (key ≠ cfg.primary)) := by
  have hfirst : 0 < 0 + cfg.encKeys.idxOf key ↔ key ≠ cfg.primary := by
    unfold TokenConfig.encKeys
    by_cases hk : key = cfg.primary
    · simp [hk]
    · rw [List.idxOf_cons_ne _ (Ne.symm hk)]
      simp [hk]
  unfold decryptToken
  rw [decryptWithKeys_encrypt h]
  simp only [hfirst]

/-- The format without additional data, which needs the flag. -/
theorem decryptToken_legacy (h : key ∈ cfg.encKeys) :
    decryptToken cfg book itemId (encrypt key nonce token []) nonce =
      if cfg.allowLegacyTokens then .ok (token, true) else .error .legacyTokenNeedsFlag := by
  have hfind : (cfg.encKeys.findSome? fun k => decrypt k (encrypt key nonce token []) nonce []) =
      some token := by
    cases hf : cfg.encKeys.findSome? fun k => decrypt k (encrypt key nonce token []) nonce [] with
    | none =>
      exact absurd (List.findSome?_eq_none_iff.mp hf key h) (by simp)
    | some t =>
      obtain ⟨k, -, hd⟩ := List.exists_of_findSome?_eq_some hf
      exact congrArg some (decrypt_eq_some.mp hd).2.symm
  unfold decryptToken
  rw [decryptWithKeys_encrypt_none (.inr (tokenAAD_ne_nil book itemId).symm)]
  simp only [hfind]

/-- Nothing else yields a token. -/
theorem decryptToken_foreign (h : key ∉ cfg.encKeys ∨ aad ≠ tokenAAD book itemId ∧ aad ≠ []) :
    decryptToken cfg book itemId (encrypt key nonce token aad) n = .error .decryptFailed := by
  have hfind : (cfg.encKeys.findSome? fun k => decrypt k (encrypt key nonce token aad) n []) =
      none := by
    refine List.findSome?_eq_none_iff.mpr fun k hk => decrypt_encrypt_ne ?_
    exact h.imp (fun h he => h (he ▸ hk)) And.right
  unfold decryptToken
  rw [decryptWithKeys_encrypt_none (h.imp_right And.left)]
  simp only [hfind]

end Rotation

/-- **Decryption under key rotation.** -/
theorem decryptToken_rotation (cfg : TokenConfig) (book : Guid) (itemId : String) (nonce : Nonce)
    (token : Token) :
    (∀ (i : Nat) (key : Key), cfg.encKeys[i]? = some key →
      decryptToken cfg book itemId (encrypt key nonce token (tokenAAD book itemId)) nonce =
        .ok (token, decide (key ≠ cfg.primary)) ∧
      decryptToken cfg book itemId (encrypt key nonce token []) nonce =
        if cfg.allowLegacyTokens then .ok (token, true) else .error .legacyTokenNeedsFlag) ∧
    (∀ key aad n r, (∃ book' itemId', aad = tokenAAD book' itemId' ∧
        (book', itemId') ≠ (book, itemId)) ∨ key ∉ cfg.encKeys →
      decryptToken cfg book itemId (encrypt key nonce token aad) n ≠ .ok r) := by
  constructor
  · intro i key hi
    have hkey : key ∈ cfg.encKeys := List.mem_of_getElem? hi
    exact ⟨decryptToken_canonical hkey, decryptToken_legacy hkey⟩
  · rintro key aad n r (⟨book', itemId', rfl, hne⟩ | hkey) h
    · rw [decryptToken_foreign (.inr ⟨fun he => ?_, tokenAAD_ne_nil _ _⟩)] at h
      · exact absurd h (by simp)
      · obtain ⟨rfl, rfl⟩ := tokenAAD_injective he
        exact hne rfl
    · rw [decryptToken_foreign (.inl hkey)] at h
      exact absurd h (by simp)

/-- A retired key, with the flag off. -/
theorem decryptToken_retired :
    decryptToken ⟨0, [1], false⟩ 3 "item" (encrypt 1 7 "access" (tokenAAD 3 "item")) 7 =
        .ok ("access", true) ∧
      decryptToken ⟨0, [1], false⟩ 3 "item" (encrypt 1 7 "access" []) 7 =
        .error .legacyTokenNeedsFlag ∧
      decryptToken ⟨0, [1], false⟩ 3 "item" (encrypt 1 7 "access" (tokenAAD 4 "item")) 7 ≠
        .ok ("access", true) := by
  obtain ⟨hown, hother⟩ := decryptToken_rotation ⟨0, [1], false⟩ 3 "item" 7 "access"
  obtain ⟨hcanonical, hlegacy⟩ := hown 1 1 rfl
  exact ⟨hcanonical, hlegacy, hother 1 _ 7 _ (.inl ⟨4, "item", rfl, by decide⟩)⟩

end Antimoney
