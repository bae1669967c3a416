import SchemaLedger.Proofs.Json.RoundTrip

/-!
What is read from JSON fits its description.

* `Codec.IsExact`: the conversions in a description lose nothing on the way in either, and the
  value of a missing field fits.
* `Codec.fits_of_readFrom`: whatever an exact description reads, from any text and in any of the
  forms that a record or a choice may have, fits it; by one induction over descriptions.
* `Codec.fits_of_read`: the same for a whole text.
-/

namespace SchemaLedger.Json

/-- A sequence of two steps succeeds if both do. -/
lemma bind_eq_ok_iff {ε α β : Type} {x : Except ε α} {f : α → Except ε β} {b : β} :
    (x >>= f) = .ok b ↔ ∃ a, x = .ok a ∧ f a = .ok b := by
  cases x with
  | ok a => exact ⟨fun h => ⟨a, rfl, h⟩, fun ⟨_, same, h⟩ => by cases same; exact h⟩
  | error e => exact ⟨fun h => (nomatch h), fun ⟨_, same, _⟩ => (nomatch same)⟩

mutual
/-- The conversions in the description lose nothing on the way in, and the values of missing
fields fit. -/
def Codec.IsExact : {α : Type} → Codec α → Prop
  | _, .number limit _ toNat ofNat _ => ∀ n < limit, toNat (ofNat n) = n
  | _, .optional item => item.IsExact
  | _, .list item => item.IsExact
  | _, .via inner split join _ => inner.IsExact ∧ ∀ b, split (join b) = b
  | _, .record _ fields split join _ => fields.IsExact ∧ ∀ r, split (join r) = r
  | _, _ => True

/-- The same for all fields of a record. -/
def Fields.IsExact : {ρ σ : Type} → Fields ρ σ → Prop
  | _, _, .nil => True
  | _, _, .cons _ presence codec rest =>
    codec.IsExact ∧ (∀ a, presence.fallback? = some a → codec.Fits a) ∧ rest.IsExact
end

lemma Codec.fits_none {α : Type} {item : Codec α} : (Codec.optional item).Fits none :=
  nofun

lemma Codec.fits_nil {α : Type} {item : Codec α} : (Codec.list item).Fits [] :=
  nofun

namespace Fields.IsExact

variable {α ρ σ : Type} {key : String} {codec : Codec α} {rest : Fields ρ σ} {value : α}

/-- A field that must be there. -/
lemma required (exact : codec.IsExact) (others : rest.IsExact) :
    (Fields.cons key .required codec rest).IsExact :=
  ⟨exact, nofun, others⟩

/-- A field with a value that it has when it is missing. -/
lemma defaulted (exact : codec.IsExact) (fits : codec.Fits value) (others : rest.IsExact) :
    (Fields.cons key (.defaulted value) codec rest).IsExact :=
  ⟨exact, fun _ same => Option.some.inj same ▸ fits, others⟩

/-- A field that is left out when it has a certain value. -/
lemma omitted {isAbsent : α → Bool} {h : ∀ a, isAbsent a = true → a = value}
    (exact : codec.IsExact) (fits : codec.Fits value) (others : rest.IsExact) :
    (Fields.cons key (.omitted value isAbsent h) codec rest).IsExact :=
  ⟨exact, fun _ same => Option.some.inj same ▸ fits, others⟩

end Fields.IsExact

/-- All that was found of a record so far fits. -/
def Fields.FoundFits : {ρ σ : Type} → Fields ρ σ → σ → Prop
  | _, _, .nil, _ => True
  | _, _, .cons _ _ codec rest, (found, more) => (∀ a ∈ found, codec.Fits a) ∧ rest.FoundFits more

/-- Nothing has been found yet that might not fit. -/
lemma Fields.foundFits_noneFound : {ρ σ : Type} → (fields : Fields ρ σ) →
    fields.FoundFits fields.noneFound
  | _, _, .nil => trivial
  | _, _, .cons _ _ _ rest => ⟨nofun, rest.foundFits_noneFound⟩

/-- The values of a record fit if all that was found fits. -/
lemma Fields.fits_of_collect : {ρ σ : Type} → (fields : Fields ρ σ) → fields.IsExact →
    {found : σ} → {r : ρ} → fields.FoundFits found → fields.collect found = .ok r → fields.Fits r
  | _, _, .nil, _, _, _, _, _ => trivial
  | _, _, .cons key presence codec rest, exact, (found, more), r, fits, collected => by
    obtain ⟨-, fallback, exactRest⟩ := exact
    rw [collect] at collected
    split at collected
    · rename_i a value
      obtain ⟨others, gathered, same⟩ := bind_eq_ok_iff.1 collected
      cases same
      refine ⟨?_, rest.fits_of_collect exactRest fits.2 gathered⟩
      cases found with
      | some b =>
        cases value
        exact fits.1 _ rfl
      | none => exact fallback a value
    · cases collected

/-! ### Items and members -/

/-- Each item of a sequence was read. -/
lemma forall_mem_of_readItems {α : Type} {item : List Char → Except Offence (α × List Char)}
    {P : α → Prop} (h : ∀ cs a rest, item cs = .ok (a, rest) → P a) {fuel : Nat} {first : Bool}
    {cs rest : List Char} {as : List α} (read : readItems item fuel first cs = .ok (as, rest)) :
    ∀ a ∈ as, P a := by
  induction fuel generalizing first cs as with
  | zero => cases read
  | succ fuel ih =>
    rw [readItems] at read
    obtain ⟨⟨more, cs'⟩, -, read⟩ := bind_eq_ok_iff.1 read
    cases more with
    | false =>
      cases read
      exact List.forall_mem_nil P
    | true =>
      obtain ⟨⟨a, cs''⟩, value, read⟩ := bind_eq_ok_iff.1 read
      obtain ⟨⟨as', cs'''⟩, others, same⟩ := bind_eq_ok_iff.1 read
      cases same
      exact List.forall_mem_cons.2 ⟨h _ _ _ value, ih others⟩

/-- What each member of a map keeps holds of all that was found. -/
lemma invariant_of_readMembers {σ : Type}
    {member : String → σ → List Char → Except Offence (σ × List Char)} {P : σ → Prop}
    (h : ∀ key found cs found' rest, P found → member key found cs = .ok (found', rest) → P found')
    {fuel : Nat} {first : Bool} {found found' : σ} {cs rest : List Char} (start : P found)
    (read : readMembers member fuel first found cs = .ok (found', rest)) : P found' := by
  induction fuel generalizing first found cs with
  | zero => cases read
  | succ fuel ih =>
    rw [readMembers] at read
    obtain ⟨⟨key, cs'⟩, -, read⟩ := bind_eq_ok_iff.1 read
    cases key with
    | none =>
      cases read
      exact start
    | some key =>
      obtain ⟨⟨found'', cs''⟩, value, read⟩ := bind_eq_ok_iff.1 read
      exact ih (h _ _ _ _ _ start value) read

/-- A number that is read is below its limit. -/
lemma lt_of_readNumber {limit n : Nat} {expected : String} {cs rest : List Char}
    (read : readNumber limit expected cs = .ok (n, rest)) : n < limit := by
  rw [readNumber] at read
  split at read
  · cases read
  · split at read
    · obtain ⟨⟨number, cs'⟩, -, read⟩ := bind_eq_ok_iff.1 read
      cases number with
      | integer n =>
        dsimp only at read
        split at read
        · rename_i small
          cases read
          exact small.2
        · cases read
      | real digits => cases read
    · cases read

/-! ### Every description -/

mutual
/-- **What is read fits.** -/
theorem Codec.fits_of_readFrom : {α : Type} → (c : Codec α) → c.IsExact → (cs : List Char) →
    (a : α) → (rest : List Char) → c.readFrom cs = .ok (a, rest) → c.Fits a
  | _, .text _, _, _, _, _, _ => trivial
  | _, .flag, _, _, _, _, _ => trivial
  | _, .instant, _, _, _, _, _ => trivial
  | _, .choice _ _ _, _, _, _, _, _ => trivial
  | _, .labels, _, _, _, _, _ => trivial
  | _, .number limit expected toNat ofNat _, exact, cs, a, rest, read => by
    rw [Codec.readFrom] at read
    obtain ⟨⟨n, cs'⟩, number, same⟩ := bind_eq_ok_iff.1 read
    cases same
    have small := lt_of_readNumber number
    rw [Codec.Fits, exact n small]
    exact small
  | _, .optional item, exact, cs, a, rest, read => by
    rw [Codec.readFrom] at read
    split at read
    · obtain ⟨cs', -, same⟩ := bind_eq_ok_iff.1 read
      cases same
      exact nofun
    · obtain ⟨⟨b, cs'⟩, value, same⟩ := bind_eq_ok_iff.1 read
      cases same
      rintro _ ⟨⟩
      exact item.fits_of_readFrom exact _ _ _ value
  | _, .list item, exact, cs, as, rest, read => by
    rw [Codec.readFrom] at read
    split at read
    · obtain ⟨⟨bs, cs'⟩, items, read⟩ := bind_eq_ok_iff.1 read
      obtain ⟨cs'', -, same⟩ := bind_eq_ok_iff.1 read
      cases same
      exact forall_mem_of_readItems (item.fits_of_readFrom exact) items
    · cases read
  | _, .via inner split join _, exact, cs, a, rest, read => by
    rw [Codec.readFrom] at read
    obtain ⟨⟨b, cs'⟩, value, same⟩ := bind_eq_ok_iff.1 read
    cases same
    rw [Codec.Fits, exact.2 b]
    exact inner.fits_of_readFrom exact.1 _ _ _ value
  | _, .record name fields split join _, exact, cs, a, rest, read => by
    obtain ⟨exact, back⟩ := exact
    rw [Codec.readFrom] at read
    split at read
    · obtain ⟨⟨r, cs'⟩, items, read⟩ := bind_eq_ok_iff.1 read
      obtain ⟨cs'', -, same⟩ := bind_eq_ok_iff.1 read
      cases same
      rw [Codec.Fits, back r]
      exact fields.fits_of_readItems exact _ _ _ _ _ _ items
    · obtain ⟨⟨found, cs'⟩, members, read⟩ := bind_eq_ok_iff.1 read
      obtain ⟨r, collected, same⟩ := bind_eq_ok_iff.1 read
      cases same
      rw [Codec.Fits, back r]
      exact fields.fits_of_collect exact
        (invariant_of_readMembers (fields.foundFits_of_readMember exact)
          fields.foundFits_noneFound members) collected
    · cases read

/-- A member that is read leaves all that was found fitting. -/
theorem Fields.foundFits_of_readMember : {ρ σ : Type} → (fields : Fields ρ σ) → fields.IsExact →
    (k : String) → (found : σ) → (cs : List Char) → (found' : σ) → (rest : List Char) →
    fields.FoundFits found → fields.readMember k found cs = .ok (found', rest) →
    fields.FoundFits found'
  | _, _, .nil, _, _, _, _, _, _, _, _ => trivial
  | _, _, .cons key presence codec rest, exact, k, (found, more), cs, found', cs', fits, read => by
    simp only [Fields.readMember] at read
    split at read
    · cases found with
      | some b => cases read
      | none =>
        obtain ⟨cs'', -, read⟩ := bind_eq_ok_iff.1 read
        obtain ⟨⟨a, cs'''⟩, value, same⟩ := bind_eq_ok_iff.1 read
        cases same
        refine ⟨?_, fits.2⟩
        rintro _ ⟨⟩
        exact codec.fits_of_readFrom exact.1 _ _ _ value
    · obtain ⟨⟨more', cs''⟩, others, same⟩ := bind_eq_ok_iff.1 read
      cases same
      exact ⟨fits.1, rest.foundFits_of_readMember exact.2.2 _ _ _ _ _ fits.2 others⟩

/-- Fields that are read as the items of a sequence fit. -/
theorem Fields.fits_of_readItems : {ρ σ : Type} → (fields : Fields ρ σ) → fields.IsExact →
    (name : String) → (size index : Nat) → (cs : List Char) → (r : ρ) → (rest : List Char) →
    fields.readItems name size index cs = .ok (r, rest) → fields.Fits r
  | _, _, .nil, _, _, _, _, _, _, _, _ => trivial
  | _, _, .cons key presence codec rest, exact, name, size, index, cs, r, cs', read => by
    obtain ⟨exactValue, fallback, exactRest⟩ := exact
    rw [Fields.readItems] at read
    obtain ⟨⟨more, cs''⟩, -, read⟩ := bind_eq_ok_iff.1 read
    dsimp only at read
    split at read
    · obtain ⟨⟨a, cs₁⟩, value, read⟩ := bind_eq_ok_iff.1 read
      obtain ⟨⟨r', cs₂⟩, others, same⟩ := bind_eq_ok_iff.1 read
      cases same
      exact ⟨codec.fits_of_readFrom exactValue _ _ _ value,
        rest.fits_of_readItems exactRest _ _ _ _ _ _ others⟩
    · split at read
      · rename_i a absent
        obtain ⟨⟨r', cs₂⟩, others, same⟩ := bind_eq_ok_iff.1 read
        cases same
        exact ⟨fallback a absent, rest.fits_of_readItems exactRest _ _ _ _ _ _ others⟩
      · cases read
end

/-- **A text is read as a value that fits.** -/
theorem Codec.fits_of_read {α : Type} {c : Codec α} (exact : c.IsExact) {text : String} {a : α}
    (read : c.read text = .ok a) : c.Fits a := by
  rw [Codec.read] at read
  obtain ⟨⟨b, rest⟩, value, read⟩ := bind_eq_ok_iff.1 read
  dsimp only at read
  split at read
  · cases read
    exact c.fits_of_readFrom exact _ _ _ value
  · cases read

end SchemaLedger.Json
