import Mathlib.Algebra.GroupWithZero.Nat
import Mathlib.Data.List.Nodup
import Mathlib.Data.List.Perm.Basic
import Warband.Proofs.Claims

/-!
# The ledger of claims

A session of the claims is a list of requests. Its ledger lists the grants that
still stand, the oldest first, and is kept without any table: a request for an
item adds a grant when none of the item stands, and a release strikes grants out.

The tables tell what the ledger tells. The items of a bot are its grants in
order, the owner of an item is the bot of its only grant, and as both tables
bind a key once, their sizes can be compared: the items of all bots, bot by bot,
are the keys of the other table in some order.
-/
namespace Warband

namespace Table

variable {κ β : Type}

def keys (t : Table κ β) : List κ := t.bindings.map (·.1)

theorem length_keys (t : Table κ β) : t.keys.length = t.size := List.length_map ..

variable [DecidableEq κ] {t : Table κ β}

theorem mem_keys_iff {key : κ} : key ∈ t.keys ↔ ∃ value, t.find? key = some value := by
  unfold keys find?
  induction t.bindings with
  | nil => simp
  | cons b l ih =>
      by_cases h : b.1 = key
      · simp [h]
      · simp [h, ih, Ne.symm h]

theorem keys_erase (t : Table κ β) (key : κ) : (t.erase key).keys = t.keys.filter (· ≠ key) := by
  unfold keys
  rw [List.filter_map]
  rfl

theorem keys_insert (t : Table κ β) (key : κ) (value : β) :
    (t.insert key value).keys = key :: t.keys.filter (· ≠ key) := by
  rw [← keys_erase]
  rfl

theorem nodup_erase (h : t.keys.Nodup) (key : κ) : (t.erase key).keys.Nodup := by
  rw [keys_erase]
  exact h.filter _

theorem nodup_insert (h : t.keys.Nodup) (key : κ) (value : β) :
    (t.insert key value).keys.Nodup := by
  rw [keys_insert]
  exact List.nodup_cons.2 ⟨by simp, h.filter _⟩

/-- A new key makes a table longer by one. -/
theorem size_insert {key : κ} (h : t.find? key = none) (value : β) :
    (t.insert key value).size = t.size + 1 := by
  have hout : ∀ k ∈ t.keys, k ≠ key := by
    rintro k hk rfl
    obtain ⟨v, hv⟩ := mem_keys_iff.1 hk
    rw [h] at hv
    cases hv
  rw [← length_keys, keys_insert, List.length_cons, ← length_keys,
    List.filter_eq_self.2 (by simpa using hout)]

end Table

namespace Loot.Claims

variable {c : Claims}

/-! ## The tables by their keys -/

/-- Everything that is claimed. -/
def items (c : Claims) : List LootId := c.owners.keys

/-- The bots that are listed with items. -/
def claimants (c : Claims) : List BotId := c.held.keys

theorem mem_items_iff {item : LootId} : item ∈ c.items ↔ ∃ bot, c.owner? item = some bot :=
  Table.mem_keys_iff

theorem length_items (c : Claims) : c.items.length = c.size := Table.length_keys _

/-- Each table binds a key once, and no bot is listed without items. -/
structure Tidy (c : Claims) : Prop where
  items : c.items.Nodup
  claimants : c.claimants.Nodup
  listed : ∀ bot items, c.held.find? bot = some items → items ≠ []

theorem tidy_empty : empty.Tidy where
  items := List.nodup_nil
  claimants := List.nodup_nil
  listed _ _ h := nomatch h

theorem nodup_setHeld {held : Table BotId (List LootId)} (h : held.keys.Nodup) (bot : BotId)
    (items : List LootId) : (setHeld held bot items).keys.Nodup := by
  unfold setHeld
  split
  · exact Table.nodup_erase h bot
  · exact Table.nodup_insert h bot items

/-- Whatever a bot comes to hold, none is listed with nothing. -/
theorem listed_setHeld {held : Table BotId (List LootId)}
    (h : ∀ bot items, held.find? bot = some items → items ≠ []) (bot : BotId)
    (items : List LootId) (other : BotId) (found : List LootId)
    (hfound : (setHeld held bot items).find? other = some found) : found ≠ [] := by
  unfold setHeld at hfound
  split at hfound
  · rw [Table.find?_erase] at hfound
    split at hfound
    · cases hfound
    · exact h other found hfound
  · rename_i hne
    rw [Table.find?_insert] at hfound
    split at hfound
    · cases hfound
      simpa using hne
    · exact h other found hfound

theorem nodup_foldl_erase {t : Table LootId BotId} (h : t.keys.Nodup) (items : List LootId) :
    (items.foldl Table.erase t).keys.Nodup := by
  induction items generalizing t with
  | nil => exact h
  | cons item items ih => exact ih (Table.nodup_erase h item)

theorem stable_tidy : Stable Tidy where
  claim {c} bot item h := by
    unfold claim
    split
    · exact h
    · exact {
        items := Table.nodup_insert h.items item bot
        claimants := nodup_setHeld h.claimants bot _
        listed := listed_setHeld h.listed bot _ }
  release {c} bot item h := by
    unfold release
    split
    · exact {
        items := Table.nodup_erase h.items item
        claimants := nodup_setHeld h.claimants bot _
        listed := listed_setHeld h.listed bot _ }
    · exact h
  releaseAll {c} bot h := {
    items := nodup_foldl_erase h.items _
    claimants := Table.nodup_erase h.claimants bot
    listed := fun other items hfound => by
      have herased : (c.held.erase bot).find? other = some items := hfound
      rw [Table.find?_erase] at herased
      split at herased
      · cases herased
      · exact h.listed other items herased }

/-- A bot is listed iff it holds something. -/
theorem Tidy.mem_claimants_iff (h : c.Tidy) {bot : BotId} :
    bot ∈ c.claimants ↔ c.ofBot bot ≠ [] := by
  rw [Claims.claimants, Table.mem_keys_iff, ofBot]
  cases hfind : c.held.find? bot with
  | none => simp
  | some items => simpa using h.listed bot items hfind

theorem size_claim {bot : BotId} {item : LootId} (h : c.owner? item = none) :
    (c.claim bot item).2.size = c.size + 1 := by
  simp only [claim, h]
  exact Table.size_insert h bot

/-- Bot by bot, the items of all bots are the claimed items. -/
theorem Tidy.perm_items (h : c.Tidy) (hagree : c.Agree) (hnodup : ∀ bot, (c.ofBot bot).Nodup) :
    c.items.Perm (c.claimants.flatMap c.ofBot) := by
  have hdisjoint : ∀ a b, a ≠ b → (c.ofBot a).Disjoint (c.ofBot b) :=
    fun a b hne item ha hb => hne (hagree.sole ha hb)
  rw [List.perm_ext_iff_of_nodup h.items]
  · intro item
    rw [mem_items_iff, List.mem_flatMap]
    constructor
    · rintro ⟨bot, howned⟩
      have hin := (hagree item bot).1 howned
      exact ⟨bot, h.mem_claimants_iff.2 (List.ne_nil_of_mem hin), hin⟩
    · rintro ⟨bot, -, hin⟩
      exact ⟨bot, (hagree item bot).2 hin⟩
  · exact List.nodup_flatMap.2 ⟨fun bot _ => hnodup bot, h.claimants.imp fun {a b} => hdisjoint a b⟩

/-! ## Sessions of requests -/

inductive Request where
  | claim (bot : BotId) (item : LootId)
  | release (bot : BotId) (item : LootId)
  | releaseAll (bot : BotId)
  | clear
deriving DecidableEq, Repr

def perform (c : Claims) : Request → Claims
  | .claim bot item => (c.claim bot item).2
  | .release bot item => (c.release bot item).2
  | .releaseAll bot => (c.releaseAll bot).2
  | .clear => c.clear

/-- The claims after a list of requests. -/
def session (requests : List Request) : Claims := requests.foldl perform empty

/-- A standing grant of an item to a bot. -/
abbrev Grant := BotId × LootId

/-- What one request does to the standing grants. -/
def note (grants : List Grant) : Request → List Grant
  | .claim bot item => if item ∈ grants.map (·.2) then grants else grants ++ [(bot, item)]
  | .release bot item => grants.filter (· ≠ (bot, item))
  | .releaseAll bot => grants.filter (·.1 ≠ bot)
  | .clear => []

/-- The grants that stand after a list of requests, the oldest first. -/
def ledger (requests : List Request) : List Grant := requests.foldl note []

/-- The items granted to a bot, in the order of the grants. -/
def grantsOf (grants : List Grant) (bot : BotId) : List LootId :=
  (grants.filter (·.1 = bot)).map (·.2)

/-- The invariant of a session: the tables tell what the ledger tells, and no
item is granted twice. -/
structure Recorded (grants : List Grant) (c : Claims) : Prop where
  owner?_iff : ∀ item bot, c.owner? item = some bot ↔ (bot, item) ∈ grants
  ofBot_eq : ∀ bot, c.ofBot bot = grantsOf grants bot
  nodup : (grants.map (·.2)).Nodup

theorem mem_grantsOf_iff {grants : List Grant} {bot : BotId} {item : LootId} :
    item ∈ grantsOf grants bot ↔ (bot, item) ∈ grants := by
  simp [grantsOf]

/-- Striking out one grant takes its item from its bot and nothing from others. -/
theorem grantsOf_release (grants : List Grant) (bot other : BotId) (item : LootId) :
    grantsOf (note grants (.release bot item)) other =
      if other = bot then (grantsOf grants other).filter (· ≠ item)
      else grantsOf grants other := by
  unfold grantsOf note
  induction grants with
  | nil => simp
  | cons g grants ih => grind

theorem grantsOf_releaseAll (grants : List Grant) (bot other : BotId) :
    grantsOf (note grants (.releaseAll bot)) other =
      if other = bot then [] else grantsOf grants other := by
  unfold grantsOf note
  induction grants with
  | nil => simp
  | cons g grants ih => grind

namespace Recorded

variable {grants : List Grant}

theorem agree (h : Recorded grants c) : c.Agree := fun item bot => by
  rw [h.owner?_iff, h.ofBot_eq, mem_grantsOf_iff]

theorem nodup_ofBot (h : Recorded grants c) (bot : BotId) : (c.ofBot bot).Nodup := by
  rw [h.ofBot_eq]
  exact h.nodup.sublist (List.filter_sublist.map _)

/-- An item is free iff no grant of it stands. -/
theorem owner?_eq_none_iff (h : Recorded grants c) {item : LootId} :
    c.owner? item = none ↔ item ∉ grants.map (·.2) := by
  rw [Option.eq_none_iff_forall_ne_some]
  constructor
  · intro hfree hin
    obtain ⟨⟨bot, _⟩, hgrant, rfl⟩ := List.mem_map.1 hin
    exact hfree bot ((h.owner?_iff _ bot).2 hgrant)
  · intro hout bot howned
    exact hout (List.mem_map.2 ⟨_, (h.owner?_iff item bot).1 howned, rfl⟩)

theorem claim (h : Recorded grants c) (bot : BotId) (item : LootId) :
    Recorded (note grants (.claim bot item)) (c.claim bot item).2 := by
  by_cases hfree : c.owner? item = none
  · have hout := h.owner?_eq_none_iff.1 hfree
    rw [note, if_neg hout]
    refine ⟨fun other b => ?_, fun b => ?_, ?_⟩
    · rw [owner?_claim, List.mem_append, ← h.owner?_iff]
      by_cases hother : other = item
      · simp [hfree, hother, eq_comm]
      · simp [hother]
    · rw [ofBot_claim, h.ofBot_eq, h.ofBot_eq]
      by_cases hb : b = bot
      · simp [hfree, hb, grantsOf]
      · simp [hb, grantsOf, Ne.symm hb]
    · rw [List.map_append, List.nodup_append]
      refine ⟨h.nodup, by simp, fun a ha b hb => ?_⟩
      obtain rfl : b = item := by simpa using hb
      rintro rfl
      exact hout ha
  · obtain ⟨owner, howner⟩ := Option.ne_none_iff_exists'.1 hfree
    rw [note, if_pos (by simpa [h.owner?_eq_none_iff] using hfree), claim_of_owner? bot howner]
    exact h

theorem release (h : Recorded grants c) (bot : BotId) (item : LootId) :
    Recorded (note grants (.release bot item)) (c.release bot item).2 := by
  refine ⟨fun other b => ?_, fun b => ?_, h.nodup.sublist (List.filter_sublist.map _)⟩
  · rw [owner?_release, note, List.mem_filter, ← h.owner?_iff]
    by_cases howned : c.owner? item = some bot
    · by_cases hother : other = item
      · have hb : bot = b → b = bot := Eq.symm
        simpa [howned, hother] using hb
      · simp [hother]
    · by_cases hother : other = item
      · have hb : c.owner? item = some b → b ≠ bot := by
          rintro hb rfl
          exact howned hb
        simpa [howned, hother] using hb
      · simp [hother]
  · rw [ofBot_release, h.ofBot_eq, h.ofBot_eq, grantsOf_release]
    by_cases hb : b = bot
    · subst hb
      by_cases howned : c.owner? item = some b
      · simp [howned]
      · -- the bot does not hold the item, so there is nothing to strike out
        have hout : item ∉ grantsOf grants b := by
          rwa [mem_grantsOf_iff, ← h.owner?_iff]
        simp only [howned, false_and, if_false, if_true]
        exact (List.filter_eq_self.2 fun other hother => by
          simpa using ne_of_mem_of_not_mem hother hout).symm
    · simp [hb]

theorem releaseAll (h : Recorded grants c) (bot : BotId) :
    Recorded (note grants (.releaseAll bot)) (c.releaseAll bot).2 := by
  refine ⟨fun item b => ?_, fun b => ?_, h.nodup.sublist (List.filter_sublist.map _)⟩
  · rw [h.agree.owner?_releaseAll, note, List.mem_filter, ← h.owner?_iff]
    by_cases howned : c.owner? item = some bot
    · have hb : bot = b → b = bot := Eq.symm
      simpa [howned] using hb
    · have hb : c.owner? item = some b → b ≠ bot := by
        rintro hb rfl
        exact howned hb
      simpa [howned] using hb
  · rw [ofBot_releaseAll, h.ofBot_eq, grantsOf_releaseAll]

theorem perform (h : Recorded grants c) (request : Request) :
    Recorded (note grants request) (c.perform request) := by
  cases request with
  | claim bot item => exact h.claim bot item
  | release bot item => exact h.release bot item
  | releaseAll bot => exact h.releaseAll bot
  | clear => exact ⟨fun item bot => by simp [Claims.perform, clear, note], fun _ => rfl, .nil⟩

end Recorded

theorem Tidy.perform (h : c.Tidy) (request : Request) : (c.perform request).Tidy := by
  cases request with
  | claim bot item => exact stable_tidy.claim bot item h
  | release bot item => exact stable_tidy.release bot item h
  | releaseAll bot => exact stable_tidy.releaseAll bot h
  | clear => exact tidy_empty

theorem session_from (requests : List Request) {grants : List Grant} (h : Recorded grants c)
    (ht : c.Tidy) :
    Recorded (requests.foldl note grants) (requests.foldl perform c) ∧
      (requests.foldl perform c).Tidy := by
  induction requests generalizing grants c with
  | nil => exact ⟨h, ht⟩
  | cons request requests ih => exact ih (h.perform request) (ht.perform request)

theorem recorded_session (requests : List Request) :
    Recorded (ledger requests) (session requests) ∧ (session requests).Tidy :=
  session_from requests ⟨by simp, by simp [grantsOf], List.nodup_nil⟩ tidy_empty

/-- Both tables tell what the ledger tells. -/
structure Faithful (grants : List Grant) (c : Claims) : Prop where
  owner_iff : ∀ item bot, c.owner? item = some bot ↔ item ∈ c.ofBot bot
  once : ∀ item bot, item ∈ c.ofBot bot → (c.ofBot bot).count item = 1
  sole : ∀ item a b, item ∈ c.ofBot a → item ∈ c.ofBot b → a = b
  listed : ∀ bot items, c.held.find? bot = some items → items ≠ []
  /-- The sum runs over every bot that holds something, once. -/
  size_eq : c.claimants.Nodup ∧ (∀ bot, bot ∈ c.claimants ↔ c.ofBot bot ≠ []) ∧
    c.size = (c.claimants.map fun bot => (c.ofBot bot).length).sum
  order : ∀ bot, c.ofBot bot = grantsOf grants bot

/-- After every session of requests both tables tell what its ledger tells, and
an item is granted iff nobody else owns it. A request for an item that is owned
changes nothing. -/
theorem claims_follow_ledger (requests : List Request) :
    Faithful (ledger requests) (session requests) ∧
      ∀ bot item,
        (((session requests).claim bot item).1 = true ↔
          (session requests).owner? item = none ∨ (session requests).owner? item = some bot) ∧
        ((session requests).owner? item ≠ none →
          ((session requests).claim bot item).2 = session requests) ∧
        ((session requests).owner? item = none →
          ((session requests).claim bot item).2.owner? item = some bot) := by
  obtain ⟨h, ht⟩ := recorded_session requests
  generalize session requests = c at h ht
  refine ⟨?_, fun bot item => ⟨?_, fun howned => ?_, fun hfree => ?_⟩⟩
  · exact {
      owner_iff := h.agree
      once := fun item bot hin => List.count_eq_one_of_mem (h.nodup_ofBot bot) hin
      sole := fun _ _ _ => h.agree.sole
      listed := ht.listed
      size_eq := by
        refine ⟨ht.claimants, fun bot => ht.mem_claimants_iff, ?_⟩
        rw [← length_items, (ht.perm_items h.agree h.nodup_ofBot).length_eq, List.length_flatMap]
      order := h.ofBot_eq }
  · rw [claim_granted_iff, heldByOther]
    cases c.owner? item <;> simp
  · obtain ⟨owner, howner⟩ := Option.ne_none_iff_exists'.1 howned
    rw [claim_of_owner? bot howner]
  · rw [owner?_claim, if_pos ⟨hfree, rfl⟩]

end Loot.Claims

end Warband
