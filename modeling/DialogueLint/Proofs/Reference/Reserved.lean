import DialogueLint.Proofs.Reference.Pattern

/-!
# Namespaces of the system

Which texts lead into a namespace of the system, written as patterns: slashes, then the name of the
namespace in any case, then anything. The test of `DialogueLint.Reference`, which drops slashes,
goes over to lower case and looks at what stands in front of the first slash, decides these patterns
(`spaceOf?_eq_some`, `reserved_iff_leadsInto`).

Case and slashes are dealt with first: dropping slashes and going over to lower case can be done in
either order, since nothing else becomes a slash. Each namespace is then told by the word in front
of the first slash; the authentication of the user is the only one with two words, and is told apart
from other texts under `user` by what follows. At the end, the references that may be read are
compared with the namespaces, in which all of them are.
-/

namespace DialogueLint.Reference

/-- Texts that are the same but for the case of ASCII letters. -/
def SameLetters (s t : List Char) : Prop := s.map Char.toLower = t.map Char.toLower

instance {s t : List Char} : Decidable (SameLetters s t) :=
  inferInstanceAs (Decidable (_ = _))

/-- A text begins, after slashes, with a word in any case. -/
def BeginsWith (word s : List Char) : Prop :=
  ∃ front name rest, IsSlashes front ∧ SameLetters name word ∧ s = front ++ name ++ rest

/-- A text leads into a namespace of the system. The authentication of the user has a name of two
parts, with any number of slashes between them. -/
def LeadsInto (s : List Char) : SystemSpace → Prop
  | .bot => BeginsWith "bot/".toList s
  | .dialogue => BeginsWith "dialogue/".toList s
  | .language => BeginsWith "language/".toList s
  | .userAuthenticationToken =>
    ∃ front user rest, IsSlashes front ∧ SameLetters user "user/".toList ∧
      s = front ++ user ++ rest ∧ BeginsWith "authenticationtoken".toList rest

/-! ## Slashes and case -/

/-- A text is split at a slash in front of which there is no other one. -/
lemma splitSlash?_eq_some {s head rest : List Char} :
    splitSlash? s = some (head, rest) ↔ '/' ∉ head ∧ s = head ++ '/' :: rest := by
  constructor
  · intro h
    induction s generalizing head with
    | nil => cases h
    | cons c s ih =>
      rw [splitSlash?] at h
      split_ifs at h with slash
      · cases h
        exact ⟨List.not_mem_nil, by rw [slash]; rfl⟩
      · obtain ⟨⟨front, behind⟩, found, same⟩ := Option.map_eq_some_iff.mp h
        cases same
        obtain ⟨plain, rfl⟩ := ih found
        exact ⟨List.not_mem_cons_of_ne_of_not_mem (Ne.symm slash) plain, rfl⟩
  · rintro ⟨plain, rfl⟩
    exact splitSlash?_append plain

/-- A text starts with a word if the word is followed by some rest. -/
lemma startsWith_iff {word s : List Char} : startsWith word s ↔ ∃ rest, s = word ++ rest := by
  rw [startsWith, Option.isSome_iff_exists]
  exact exists_congr fun rest => after?_eq_some

/-- Nothing but a slash is a slash in lower case, so slashes can be dropped before or after. -/
lemma dropSlashes_map_toLower (s : List Char) :
    dropSlashes (s.map Char.toLower) = (dropSlashes s).map Char.toLower := by
  have slash : ((· == '/') ∘ Char.toLower) = fun c => c == '/' := by
    funext c
    rw [Function.comp_apply, Bool.eq_iff_iff, beq_iff_eq, beq_iff_eq]
    refine ⟨toLower_eq_slash, ?_⟩
    rintro rfl
    rfl
  rw [dropSlashes, List.dropWhile_map, slash, dropSlashes]

/-- Where a word is found in lower case, after slashes, it stands in some case. -/
lemma lower_eq_append_iff {c : Char} (first : c ≠ '/') {word behind s : List Char} :
    (dropSlashes s).map Char.toLower = c :: word ++ behind ↔
      ∃ front name rest, IsSlashes front ∧ name.map Char.toLower = c :: word ∧
        rest.map Char.toLower = behind ∧ s = front ++ name ++ rest := by
  constructor
  · intro h
    obtain ⟨name, rest, split, lower, behind⟩ := List.map_eq_append_iff.mp h
    obtain ⟨front, slashes, hs⟩ := exists_dropSlashes s
    exact ⟨front, name, rest, slashes, lower, behind, by rw [List.append_assoc, ← split, ← hs]⟩
  · rintro ⟨front, name, rest, slashes, lower, rfl, rfl⟩
    cases name with
    | nil => cases lower
    | cons d name =>
      have other : d ≠ '/' := by
        rintro rfl
        exact first (List.head_eq_of_cons_eq lower).symm
      have kept : dropSlashes (front ++ (d :: name ++ rest)) = d :: name ++ rest := by
        rw [List.cons_append, dropSlashes_eq_iff other]
        exact ⟨front, slashes, rfl⟩
      rw [List.append_assoc, kept, List.map_append, lower]

/-! ## Words in front -/

section Words

variable {c : Char} {word s : List Char}

/-- A word in front, in any case, is seen in the lower case of what remains without slashes. -/
lemma beginsWith_iff (first : c ≠ '/') (lower : (c :: word).map Char.toLower = c :: word) :
    BeginsWith (c :: word) s ↔
      ∃ behind, (dropSlashes s).map Char.toLower = c :: word ++ behind := by
  simp only [lower_eq_append_iff first, BeginsWith, SameLetters, lower]
  constructor
  · rintro ⟨front, name, rest, slashes, same, rfl⟩
    exact ⟨_, front, name, rest, slashes, same, rfl, rfl⟩
  · rintro ⟨behind, front, name, rest, slashes, same, -, hs⟩
    exact ⟨front, name, rest, slashes, same, hs⟩

/-- A word and a slash are in front if the word is what stands in front of the first slash. -/
lemma beginsWith_slash_iff (c : Char) (word : List Char)
    (lower : (c :: word).map Char.toLower = c :: word) (plain : '/' ∉ c :: word) :
    BeginsWith (c :: word ++ ['/']) s ↔
      ∃ rest, splitSlash? ((dropSlashes s).map Char.toLower) = some (c :: word, rest) := by
  have first : c ≠ '/' := fun same => plain (same ▸ List.mem_cons_self)
  have slash : (c :: (word ++ ['/'])).map Char.toLower = c :: (word ++ ['/']) := by
    rw [← List.cons_append, List.map_append, lower]
    rfl
  rw [List.cons_append, beginsWith_iff first slash]
  simp [splitSlash?_eq_some, plain]

/-- More text behind does not matter for what is in front. -/
lemma BeginsWith.append (h : BeginsWith word s) (more : List Char) :
    BeginsWith word (s ++ more) := by
  obtain ⟨front, name, rest, slashes, same, rfl⟩ := h
  exact ⟨front, name, rest ++ more, slashes, same, List.append_assoc ..⟩

/-- More text behind does not matter for the namespace. -/
lemma LeadsInto.append {space : SystemSpace} (h : LeadsInto s space) (more : List Char) :
    LeadsInto (s ++ more) space := by
  cases space with
  | bot | dialogue | language => exact BeginsWith.append h more
  | userAuthenticationToken =>
    obtain ⟨front, user, rest, slashes, same, rfl, token⟩ := h
    exact ⟨front, user, rest ++ more, slashes, same, List.append_assoc .., token.append more⟩

end Words

/-! ## Namespaces -/

section Spaces

variable {s : List Char} {space : SystemSpace}

/-- The authentication of the user is told by both parts of its name. -/
lemma leadsInto_user_iff :
    LeadsInto s .userAuthenticationToken ↔
      ∃ behind, (dropSlashes s).map Char.toLower = "user/".toList ++ behind ∧
        startsWith "authenticationtoken".toList (dropSlashes behind) := by
  have user : "user/".toList = 'u' :: "ser/".toList := by simp
  have token : "authenticationtoken".toList = 'a' :: "uthenticationtoken".toList := by simp
  have begins : ∀ rest, BeginsWith "authenticationtoken".toList rest ↔
      ∃ more, dropSlashes (rest.map Char.toLower) = "authenticationtoken".toList ++ more := by
    intro rest
    rw [token, beginsWith_iff (by decide) (by simp), dropSlashes_map_toLower]
  have first : 'u' ≠ '/' := by decide
  simp only [LeadsInto, startsWith_iff, user, lower_eq_append_iff first]
  constructor
  · rintro ⟨front, name, rest, slashes, same, rfl, more⟩
    refine ⟨_, ⟨front, name, rest, slashes, ?_, rfl, rfl⟩, (begins rest).mp more⟩
    exact same.trans (by simp)
  · rintro ⟨_, ⟨front, name, rest, slashes, same, rfl, rfl⟩, more⟩
    refine ⟨front, name, rest, slashes, ?_, rfl, (begins rest).mpr more⟩
    exact same.trans (by simp)

/-- A namespace is told by what stands in front of the first slash, and for the authentication of
the user by what stands behind it as well. -/
lemma leadsInto_iff :
    LeadsInto s space ↔
      ∃ head rest, splitSlash? ((dropSlashes s).map Char.toLower) = some (head, rest) ∧
        match space with
        | .bot => head = "bot".toList
        | .dialogue => head = "dialogue".toList
        | .language => head = "language".toList
        | .userAuthenticationToken => head = "user".toList ∧
            startsWith "authenticationtoken".toList (dropSlashes rest) := by
  cases space with
  | bot => simpa [LeadsInto] using beginsWith_slash_iff 'b' "ot".toList (by simp) (by simp)
  | dialogue =>
    simpa [LeadsInto] using beginsWith_slash_iff 'd' "ialogue".toList (by simp) (by simp)
  | language =>
    simpa [LeadsInto] using beginsWith_slash_iff 'l' "anguage".toList (by simp) (by simp)
  | userAuthenticationToken =>
    rw [leadsInto_user_iff]
    simp [splitSlash?_eq_some]

/-- The test for namespaces decides their patterns. -/
lemma spaceOf?_eq_some : spaceOf? s = some space ↔ LeadsInto s space := by
  rw [leadsInto_iff]
  unfold spaceOf?
  constructor
  · intro h
    split at h
    · cases h
    · rename_i head rest found
      refine ⟨head, rest, found, ?_⟩
      -- the names are tried in turn, and each namespace is given for one of them only
      split_ifs at h with bot dialogue language user <;> cases h
      · exact bot
      · exact dialogue
      · exact language
      · simpa using user
  · rintro ⟨head, rest, found, named⟩
    rw [found]
    cases space with
    | bot =>
      subst named
      rfl
    | dialogue =>
      subst named
      rfl
    | language =>
      subst named
      rfl
    | userAuthenticationToken =>
      obtain ⟨rfl, token⟩ := named
      simp only [token]
      rfl

/-- A reference is reserved for a namespace exactly if it leads into it. -/
lemma reserved?_eq_some {r : String} : reserved? r = some space ↔ LeadsInto r.toList space :=
  spaceOf?_eq_some

/-- A text leads into one namespace at most. -/
lemma LeadsInto.unique {other : SystemSpace} (h : LeadsInto s space) (ho : LeadsInto s other) :
    space = other :=
  Option.some.inj ((spaceOf?_eq_some.mpr h).symm.trans (spaceOf?_eq_some.mpr ho))

/-- Slashes in front do not count. -/
lemma spaceOf?_append {front : List Char} (slashes : IsSlashes front) :
    spaceOf? (front ++ s) = spaceOf? s := by
  rw [spaceOf?, dropSlashes_append slashes, spaceOf?]

/-- The case of letters does not count. -/
lemma spaceOf?_congr {t : List Char} (same : SameLetters t s) : spaceOf? t = spaceOf? s := by
  have lower : dropSlashes (t.map Char.toLower) = dropSlashes (s.map Char.toLower) :=
    congrArg dropSlashes same
  rw [dropSlashes_map_toLower, dropSlashes_map_toLower] at lower
  rw [spaceOf?, lower, spaceOf?]

end Spaces

/-! ## References that may be read -/

/-- Slashes, and then a key under `Bot/` or `Language/`, or the status of the last call. -/
def IsSystemReadPattern (s : List Char) : Prop :=
  IsKeyUnderPattern "Bot/".toList s ∨ IsKeyUnderPattern "Language/".toList s ∨
    ∃ front, IsSlashes front ∧ s = front ++ "Dialogue/LastApiStatusCode".toList

section Readable

variable {r : String}

/-- The test for references of the system that may be read decides their pattern. -/
lemma isSystemRead_iff : isSystemRead r ↔ IsSystemReadPattern r.toList := by
  have bot : "Bot/".toList = 'B' :: "ot/".toList := by simp
  have language : "Language/".toList = 'L' :: "anguage/".toList := by simp
  have status : "Dialogue/LastApiStatusCode".toList =
      'D' :: "ialogue/LastApiStatusCode".toList := by simp
  rw [isSystemRead, IsSystemReadPattern, Bool.or_eq_true, Bool.or_eq_true, beq_iff_eq, bot,
    language, status, dropSlashes_eq_iff (by decide), isKeyUnder_iff (by decide),
    isKeyUnder_iff (by decide), or_assoc, or_comm, or_assoc]

/-- A reference to a language is one of the system that may be read. -/
lemma isSystemRead_of_isLanguage (h : isLanguage r) : isSystemRead r :=
  Bool.or_eq_true_iff.mpr (.inr h)

/-- Whatever stands under a word in its usual case stands under it in any case. -/
lemma IsKeyUnderPattern.beginsWith {word name s : List Char} (h : IsKeyUnderPattern word s)
    (same : SameLetters word name) : BeginsWith name s := by
  obtain ⟨front, key, slashes, -, hs⟩ := h
  exact ⟨front, word, key, slashes, same, hs⟩

/-- A reference of the system that may be read is in a namespace of the system. -/
lemma IsSystemReadPattern.leadsInto {s : List Char} (h : IsSystemReadPattern s) :
    ∃ space, LeadsInto s space := by
  rcases h with key | key | ⟨front, slashes, rfl⟩
  · exact ⟨.bot, key.beginsWith (by decide)⟩
  · exact ⟨.language, key.beginsWith (by decide)⟩
  · refine ⟨.dialogue, front, "Dialogue/".toList, "LastApiStatusCode".toList, slashes,
      by decide, ?_⟩
    rw [List.append_assoc, ← String.toList_append]
    rfl

/-- A reference of the system that may be read is reserved. -/
lemma reserved?_of_isSystemRead (h : isSystemRead r) : ∃ space, reserved? r = some space := by
  obtain ⟨space, leads⟩ := (isSystemRead_iff.mp h).leadsInto
  exact ⟨space, reserved?_eq_some.mpr leads⟩

end Readable

/-- References lead into a namespace of the system exactly by the patterns of the namespaces, of
which a reference meets one at most. The namespace is the same with more slashes in front and with
letters in another case, and stays the same with more text behind. -/
theorem reserved_iff_leadsInto (r : String) :
    (∀ space, reserved? r = some space ↔ LeadsInto r.toList space) ∧
      (reserved? r = none ↔ ∀ space, ¬ LeadsInto r.toList space) ∧
      (∀ space other, LeadsInto r.toList space → LeadsInto r.toList other → space = other) ∧
      (∀ n, reserved? (String.ofList (List.replicate n '/') ++ r) = reserved? r) ∧
      (∀ t : String, SameLetters t.toList r.toList → reserved? t = reserved? r) ∧
      ∀ space more, reserved? r = some space → reserved? (r ++ more) = some space := by
  refine ⟨fun _ => reserved?_eq_some, ?_, fun _ _ => LeadsInto.unique, fun n => ?_,
    fun t => spaceOf?_congr, fun space more h => ?_⟩
  · rw [Option.eq_none_iff_forall_ne_some]
    exact forall_congr' fun space => not_congr reserved?_eq_some
  · rw [reserved?, String.toList_append, String.toList_ofList]
    exact spaceOf?_append fun c mem => List.eq_of_mem_replicate mem
  · rw [reserved?_eq_some, String.toList_append]
    exact (reserved?_eq_some.mp h).append more.toList

/-- Both parts of the longer name may stand behind several slashes. -/
example : reserved? "//USER///authenticationTokens/1" = some .userAuthenticationToken := by decide

/-- A name without its slash leads nowhere. -/
example : reserved? "/Bot" = none ∧ reserved? "users/authenticationtoken" = none := by decide

end DialogueLint.Reference
