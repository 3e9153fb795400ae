/-!
# Token store

Tokens by key. A token with an expiry is dead from that instant on. Reading a key first removes a
token that is dead at the clock reading taken for it, then looks the key up; writing replaces what
the key held. The three steps are atomic, a reading as a whole is not.
-/

namespace Switchboard.Auth

/-- A credential; the expiry is an instant in milliseconds. -/
structure Token where
  access : String
  expires : Option Int := none
  refresh : Option String := none
  deriving DecidableEq, Repr

def Token.isExpiredAt (t : Token) (now : Int) : Bool :=
  match t.expires with
  | some at_ => at_ ≤ now
  | none => false

/-- At most one token per key. -/
structure TokenStore where
  tokens : List (String × Token)
  deriving DecidableEq, Repr

namespace TokenStore

def empty : TokenStore := ⟨[]⟩

def lookup (s : TokenStore) (key : String) : Option Token := s.tokens.lookup key

def erase (s : TokenStore) (key : String) : TokenStore := ⟨s.tokens.filter (·.1 != key)⟩

def set (s : TokenStore) (key : String) (t : Token) : TokenStore :=
  ⟨(key, t) :: (s.erase key).tokens⟩

/-- Later entries for a key replace earlier ones. -/
def ofList (seed : List (String × Token)) : TokenStore :=
  seed.foldl (fun s (key, t) => s.set key t) empty

/-- Removes the token of `key` if it is dead, and tells whether it was. -/
def dropExpired (s : TokenStore) (key : String) (now : Int) : Bool × TokenStore :=
  match s.lookup key with
  | some t => if t.isExpiredAt now then (true, s.erase key) else (false, s)
  | none => (false, s)

/-- The live token of `key`, and the store without a dead one. -/
def get (s : TokenStore) (key : String) (now : Int) : Option Token × TokenStore :=
  match s.dropExpired key now with
  | (true, s) => (none, s)
  | (false, s) => (s.lookup key, s)

theorem lookup_erase_self (s : TokenStore) (key : String) : (s.erase key).lookup key = none := by
  simp only [lookup, erase, List.lookup_eq_none_iff]
  intro p hp
  simpa [bne_iff_ne, ne_comm] using (List.mem_filter.1 hp).2

theorem lookup_erase_of_ne (s : TokenStore) {key other : String} (h : other ≠ key) :
    (s.erase key).lookup other = s.lookup other := by
  obtain ⟨tokens⟩ := s
  simp only [lookup, erase]
  induction tokens with
  | nil => rfl
  | cons p rest ih =>
    obtain ⟨k, t⟩ := p
    by_cases hk : k = key
    · have hne : (other == key) = false := by simpa using h
      simp [hk, ih, List.lookup_cons, hne]
    · by_cases ho : other = k
      · simp [hk, ho]
      · have hne : (other == k) = false := by simpa using ho
        simp [hk, List.lookup_cons, hne, ih]

theorem lookup_set_self (s : TokenStore) (key : String) (t : Token) :
    (s.set key t).lookup key = some t := by
  simp [lookup, set]

theorem lookup_set_of_ne (s : TokenStore) {key other : String} (t : Token) (h : other ≠ key) :
    (s.set key t).lookup other = s.lookup other := by
  have hne : (other == key) = false := by simpa using h
  have := lookup_erase_of_ne s h
  simp only [lookup] at this
  simp [lookup, set, List.lookup_cons, hne, this]

end TokenStore
end Switchboard.Auth
