import IngrediGo.Lib.Order
import IngrediGo.Stores.NearbyStores
import Mathlib.Algebra.Order.Field.Basic

/-!
# The ranking of the shops

The order `processStoreData` leaves the cards in. Its comparator sees rounded percentages
only: the sort is stable, so shops it does not tell apart stay in the order of the recipe's
entries, and up to a hundred selected items the rounding loses no difference
(`percentage_lt`).
-/

namespace IngrediGo.NearbyStores

open Lib

/-! ## Percentages -/

theorem percentage_some {n : ℕ} (k : ℕ) (hn : n ≠ 0) :
    percentage k n = some (Number.round ((k : ℚ) / n * 100)) := if_neg hn

/-- The percentage of some of the selected items is one. -/
theorem percentage_range {k n : ℕ} (hn : n ≠ 0) (hk : k ≤ n) :
    ∃ p, percentage k n = some p ∧ 0 ≤ p ∧ p ≤ 100 := by
  have hn0 : (0 : ℚ) < n := by exact_mod_cast Nat.pos_of_ne_zero hn
  have hle : (k : ℚ) ≤ n := by exact_mod_cast hk
  refine ⟨_, percentage_some k hn, ?_, ?_⟩
  · have h0 : ((0 : ℤ) : ℚ) ≤ (k : ℚ) / n * 100 := by push_cast; positivity
    exact (Number.round_intCast 0).ge.trans (Number.round_mono h0)
  · have h100 : (k : ℚ) / n * 100 ≤ ((100 : ℤ) : ℚ) := by
      have hwhole := (div_le_one hn0).mpr hle
      push_cast
      linarith
    exact (Number.round_mono h100).trans (Number.round_intCast 100).le

/-- **Up to a hundred items, one more is at least a percent more.** -/
theorem percentage_lt {k m n : ℕ} (hn : n ≠ 0) (hkm : k < m) (hn100 : n ≤ 100) :
    Number.round ((k : ℚ) / n * 100) < Number.round ((m : ℚ) / n * 100) := by
  have hn0 : (0 : ℚ) < n := by exact_mod_cast Nat.pos_of_ne_zero hn
  have hstep : (k : ℚ) + 1 ≤ m := by exact_mod_cast hkm
  have hle : (n : ℚ) ≤ 100 := by exact_mod_cast hn100
  apply Number.round_lt
  have hpercent : 1 ≤ 100 / (n : ℚ) := (one_le_div hn0).mpr hle
  calc (k : ℚ) / n * 100 + 1 ≤ (k : ℚ) / n * 100 + 100 / n := by linarith
    _ = (k + 1 : ℚ) / n * 100 := by ring
    _ ≤ (m : ℚ) / n * 100 := by gcongr

/-! ## Dots -/

/-- Green is better than yellow, yellow than red. -/
def dotRank (dotColor : String) : ℕ :=
  if dotColor = "#4CAF50" then 2 else if dotColor = "#FFC107" then 1 else 0

theorem dotRank_mono {p q : ℤ} (h : p ≤ q) :
    dotRank (getDotColor (some p)) ≤ dotRank (getDotColor (some q)) := by
  have hrank : ∀ p : ℤ, dotRank (getDotColor (some p)) =
      if p ≥ 80 then 2 else if p ≥ 50 then 1 else 0 := by
    intro p
    show dotRank (if p ≥ 80 then "#4CAF50" else if p ≥ 50 then "#FFC107" else "#FF5722") = _
    split
    · rfl
    · split <;> rfl
  rw [hrank, hrank]
  split_ifs <;> omega

/-! ## The order of the cards -/

/-- The shops' names as the recipe's ingredients have them, repetitions included. -/
def entryNames (recipe : Recipe) : List String :=
  (recipe.ingredients.getD []).flatMap fun ingredient =>
    (ingredient.stores.getD []).map (·.name)

variable {t : String → String} {lang : Lang} {random : Nat → Fin 5} {selectedItems : List String}
  {recipe : Recipe} {cards : List StoreCard}

theorem allStores_eq {stores : List (List StoreEntry)} (h : storeLists recipe = some stores) :
    allStores stores = (entryNames recipe).eraseDups := by
  obtain ⟨ingredients, hi, hs⟩ := Option.bind_eq_some_iff.mp h
  obtain ⟨-, rfl⟩ : _ ∧ ingredients.map (·.stores.getD []) = stores := by
    simpa [Option.ite_none_right_eq_some] using hs
  rw [allStores, entryNames, hi, Option.getD_some, List.map_flatten, List.map_map]
  rw [List.flatMap_def]
  rfl

/-- The availability of a card as a number. -/
def StoreCard.rank (card : StoreCard) : ℤ := card.availabilityPercentage.getD 0

/-- The cards before the sort are in the order of the recipe's entries. -/
theorem mapIdx_pairwise {stores : List (List StoreEntry)} (h : storeLists recipe = some stores)
    {f : ℕ → String → StoreCard} (hf : ∀ i storeName, (f i storeName).name = storeName) :
    ((allStores stores).mapIdx f).Pairwise fun a b =>
      (entryNames recipe).idxOf a.name < (entryNames recipe).idxOf b.name := by
  have hnames := eraseDups_idxOf (entryNames recipe)
  rw [← allStores_eq h, ← map_mapIdx_of_leftInverse hf (allStores stores),
    List.pairwise_map] at hnames
  exact hnames

/-- With items selected, the percentage of a card is a number from 0 to 100. -/
theorem card_percentage (h : processStoreData t lang random selectedItems recipe = some cards)
    (hs : selectedItems ≠ []) {card : StoreCard} (hc : card ∈ cards) :
    ∃ p, card.availabilityPercentage = some p ∧ 0 ≤ p ∧ p ≤ 100 := by
  obtain ⟨distance, he⟩ := card_eq h hc
  rw [he]
  exact percentage_range (mt List.length_eq_zero_iff.mp hs) (List.length_filter_le _ _)

/-- **The ranking**: of two cards the earlier one has no lower percentage, and if they have
the same, its shop comes first in the recipe. -/
theorem cards_pairwise (h : processStoreData t lang random selectedItems recipe = some cards)
    (hs : selectedItems ≠ []) :
    cards.Pairwise fun a b => b.rank ≤ a.rank ∧
      (a.rank = b.rank →
        (entryNames recipe).idxOf a.name < (entryNames recipe).idxOf b.name) := by
  -- no percentage is `NaN`, so the comparator compares ranks
  have hrank : ∀ a ∈ cards, ∀ b ∈ cards, RanksBefore a b ↔ b.rank ≤ a.rank := by
    intro a ha b hb
    obtain ⟨p, hp, -⟩ := card_percentage h hs ha
    obtain ⟨q, hq, -⟩ := card_percentage h hs hb
    simp only [RanksBefore, StoreCard.rank, hp, hq, Option.getD_some]
    omega
  obtain ⟨stores, hstores, rfl⟩ := Option.map_eq_some_iff.mp h
  refine insertionSort_ranked StoreCard.rank (fun a ha b hb => hrank a ?_ b ?_)
    (mapIdx_pairwise hstores fun _ _ => rfl)
  · exact (List.mem_insertionSort RanksBefore).mpr ha
  · exact (List.mem_insertionSort RanksBefore).mpr hb

/-- What the number of a card's included items decides. -/
theorem card_rank (h : processStoreData t lang random selectedItems recipe = some cards)
    (hs : selectedItems ≠ []) {card : StoreCard} (hc : card ∈ cards) :
    card.dotColor = getDotColor (some card.rank) ∧
    card.rank =
      Number.round ((card.includedIngredients.length : ℚ) / selectedItems.length * 100) := by
  obtain ⟨distance, he⟩ := card_eq h hc
  have hpercent : card.availabilityPercentage =
      percentage card.includedIngredients.length selectedItems.length := by rw [he]; rfl
  have hdot : card.dotColor = getDotColor card.availabilityPercentage := by rw [he]; rfl
  rw [percentage_some _ (mt List.length_eq_zero_iff.mp hs)] at hpercent
  rw [hdot, StoreCard.rank, hpercent]
  exact ⟨rfl, rfl⟩

/-- How many of the selected items a shop has. -/
def availableCount (recipe : Recipe) (selectedItems : List String) (storeName : String) : ℕ :=
  selectedItems.countP (isIncluded (recipe.ingredients.getD []) storeName)

theorem included_length (h : processStoreData t lang random selectedItems recipe = some cards)
    {card : StoreCard} (hc : card ∈ cards) :
    card.includedIngredients.length = availableCount recipe selectedItems card.name := by
  rw [included_eq h hc, availableCount, List.countP_eq_length_filter]

/-- Up to a hundred items, the card of a shop with fewer of them ranks lower, and its dot is no
better. -/
theorem rank_lt (h : processStoreData t lang random selectedItems recipe = some cards)
    (hs : selectedItems ≠ []) (h100 : selectedItems.length ≤ 100) {a b : StoreCard}
    (ha : a ∈ cards) (hb : b ∈ cards)
    (hlt : availableCount recipe selectedItems b.name <
      availableCount recipe selectedItems a.name) :
    b.rank < a.rank ∧ dotRank b.dotColor ≤ dotRank a.dotColor := by
  obtain ⟨hdota, hranka⟩ := card_rank h hs ha
  obtain ⟨hdotb, hrankb⟩ := card_rank h hs hb
  rw [← included_length h ha, ← included_length h hb] at hlt
  have hrank : b.rank < a.rank := by
    rw [hranka, hrankb]
    exact percentage_lt (mt List.length_eq_zero_iff.mp hs) hlt h100
  rw [hdota, hdotb]
  exact ⟨hrank, dotRank_mono hrank.le⟩

/-- Each shop of the recipe's entries has one card. -/
theorem names_perm_entryNames
    (h : processStoreData t lang random selectedItems recipe = some cards) :
    (cards.map (·.name)).Perm (entryNames recipe).eraseDups := by
  obtain ⟨stores, hstores, hperm⟩ := names_perm h
  rwa [allStores_eq hstores] at hperm

/-- **Shops are ranked by availability**, each with one card that includes the selected items
it has, and up to a hundred selected items the rounding misorders none. -/
theorem cards_ranked (h : processStoreData t lang random selectedItems recipe = some cards)
    (hs : selectedItems ≠ []) :
    (cards.map (·.name)).Perm (entryNames recipe).eraseDups ∧
    (∀ card ∈ cards, card.includedIngredients =
      selectedItems.filter (isIncluded (recipe.ingredients.getD []) card.name)) ∧
    (∀ card ∈ cards, ∃ p, card.availabilityPercentage = some p ∧ 0 ≤ p ∧ p ≤ 100) ∧
    (cards.Pairwise fun a b => ∃ p q, a.availabilityPercentage = some p ∧
      b.availabilityPercentage = some q ∧ q ≤ p) ∧
    (cards.Pairwise fun a b => a.availabilityPercentage = b.availabilityPercentage →
      (entryNames recipe).idxOf a.name < (entryNames recipe).idxOf b.name) ∧
    (selectedItems.length ≤ 100 → ∀ (i j : ℕ) (a b : StoreCard), cards[i]? = some a →
      cards[j]? = some b → availableCount recipe selectedItems b.name <
        availableCount recipe selectedItems a.name →
          i < j ∧ dotRank b.dotColor ≤ dotRank a.dotColor) := by
  have hpairs := cards_pairwise h hs
  refine ⟨names_perm_entryNames h, fun card hc => included_eq h hc,
    fun card hc => card_percentage h hs hc, ?_, ?_, ?_⟩
  · refine hpairs.imp_of_mem fun {a b} ha hb hab => ?_
    obtain ⟨p, hp, -⟩ := card_percentage h hs ha
    obtain ⟨q, hq, -⟩ := card_percentage h hs hb
    have hle := hab.1
    rw [StoreCard.rank, StoreCard.rank, hp, hq] at hle
    exact ⟨p, q, hp, hq, hle⟩
  · refine hpairs.imp fun {a b} hab heq => hab.2 ?_
    rw [StoreCard.rank, StoreCard.rank, heq]
  · intro h100 i j a b hi hj hlt
    have ha := List.mem_of_getElem? hi
    have hb := List.mem_of_getElem? hj
    obtain ⟨hrank, hdot⟩ := rank_lt h hs h100 ha hb hlt
    refine ⟨?_, hdot⟩
    obtain ⟨hilt, rfl⟩ := List.getElem?_eq_some_iff.mp hi
    obtain ⟨hjlt, rfl⟩ := List.getElem?_eq_some_iff.mp hj
    rcases Nat.lt_trichotomy i j with hij | rfl | hji
    · exact hij
    · exact absurd hrank (Int.lt_irrefl _)
    · have hle := (List.pairwise_iff_getElem.mp hpairs j i hjlt hilt hji).1
      omega

/-- Flour at two shops, salt at the second of them. -/
def dough : Recipe :=
  { Recipe.bare (.num 8) with
    ingredients := some [
      ⟨some (.num 1), "Flour", none, none,
        some [⟨"Aldi", some (.bool true), none⟩, ⟨"Lidl", some (.bool true), none⟩]⟩,
      ⟨some (.num 2), "Salt", none, none, some [⟨"Lidl", some (.bool true), none⟩]⟩] }

theorem cards_ranked_dough : ∃ cards,
    processStoreData id .en (fun _ => 0) ["Flour", "Salt"] dough = some cards ∧
      (cards.map (·.name)).Perm ["Aldi", "Lidl"] ∧
      (cards.Pairwise fun a b => a.availabilityPercentage = b.availabilityPercentage →
        (entryNames dough).idxOf a.name < (entryNames dough).idxOf b.name) ∧
      ∀ (i j : ℕ) (a b : StoreCard), cards[i]? = some a → cards[j]? = some b →
        a.name = "Lidl" → b.name = "Aldi" → i < j ∧ dotRank b.dotColor ≤ dotRank a.dotColor := by
  have hcards : processStoreData id .en (fun _ => 0) ["Flour", "Salt"] dough = some _ := rfl
  obtain ⟨hnames, -, -, -, hties, horder⟩ := cards_ranked hcards (by decide)
  refine ⟨_, hcards, hnames, hties, fun i j a b hi hj ha hb => ?_⟩
  refine horder (by decide) i j a b hi hj ?_
  rw [ha, hb]
  decide

end IngrediGo.NearbyStores
