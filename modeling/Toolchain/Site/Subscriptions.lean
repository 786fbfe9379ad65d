import Toolchain.Lib.Run

/-!
# Site.Subscriptions — service levels that follow a Stripe subscription

A subscription that runs into a limited status limits the customer.  Once it is active again,
`_maybe_activate_customer` does nothing for a customer that was activated before.

Models `payments/stripe_integration/handlers.py` and the setters of `Customer` in `django/site/models.py`.
-/

namespace Toolchain.Site

open Lib

inductive CustomerType
  | customer | internal | openSource | prospect
  deriving DecidableEq

inductive ServiceLevel
  | fullService | limited
  deriving DecidableEq

inductive SubscriptionStatus
  | trialing | active | incomplete | pastDue | canceled | unpaid
  | other (status : String)
  deriving DecidableEq

def SubscriptionStatus.isLimited (self : SubscriptionStatus) : Prop :=
  self ∈ [pastDue, canceled, unpaid]

inductive ToolchainAssertion
  | customerIdMismatch | unexpectedStripeCustomer | transitionNotAllowed

structure Customer where
  id : String
  customerType : CustomerType
  serviceLevel : ServiceLevel

structure SubscribedCustomer where
  stripeCustomerId : String
  payoutOutsideOfStripe : Bool

structure StripeSubscription where
  (stripeId stripeCustomerId : String)
  status : SubscriptionStatus

structure StripeCustomer where
  (toolchainId stripeId : String)
  hasDefaultPaymentMethod : Bool

namespace Customer

def setServiceLevel (self : Customer) (serviceLevel : ServiceLevel) : Customer :=
  { self with serviceLevel }

def setType (self : Customer) (customerType : CustomerType) : Except ToolchainAssertion Customer :=
  if self.customerType = customerType then .ok self
  else if self.customerType ∉ [.customer, .prospect] ∨ customerType ∉ [.customer, .prospect] then
    .error .transitionNotAllowed
  else .ok { self with customerType }

end Customer

variable (stripe : String → Option StripeCustomer) (sc : SubscribedCustomer)
  (subscription : StripeSubscription)

/-- The customer, and the subscription that is cancelled at Stripe. -/
def maybeActivateCustomer (customer : Customer) : Except ToolchainAssertion (Customer × Option String) :=
  if customer.customerType = .customer then .ok (customer, none)
  else
    match stripe customer.id with
    | none => .error .unexpectedStripeCustomer
    | some record =>
      if record.toolchainId ≠ customer.id ∨ record.stripeId ≠ sc.stripeCustomerId then
        .error .unexpectedStripeCustomer
      else if !record.hasDefaultPaymentMethod then .ok (customer, some subscription.stripeId)
      else (customer.setType .customer).map fun customer => (customer.setServiceLevel .fullService, none)

/-- The customer with the cancelled subscription, and whether the status was handled. -/
def handleSubscriptionStatus (customer : Customer) :
    Except ToolchainAssertion ((Customer × Option String) × Bool) :=
  if sc.stripeCustomerId ≠ subscription.stripeCustomerId then .error .customerIdMismatch
  else if sc.payoutOutsideOfStripe then .ok ((customer, none), false)
  else (·, true) <$> match subscription.status with
    | .pastDue | .canceled | .unpaid => .ok (customer.setServiceLevel .limited, none)
    | .trialing => (customer.setType .prospect).map fun customer =>
      (customer.setServiceLevel .fullService, none)
    | .active | .incomplete => maybeActivateCustomer stripe sc subscription customer
    | .other _ => .ok (customer, none)

/-- Handles the next status; an assertion that fails leaves the customer as it was. -/
def follow (s : Customer × Option SubscriptionStatus) (status : SubscriptionStatus) :
    Customer × Option SubscriptionStatus :=
  match handleSubscriptionStatus stripe sc { subscription with status } s.1 with
  | .ok ((customer, _), _) => (customer, some status)
  | .error _ => (s.1, some status)

structure PaysThroughStripe (customer : Customer) : Prop where
  inside : sc.payoutOutsideOfStripe = false
  subscribed : sc.stripeCustomerId = subscription.stripeCustomerId
  record : stripe customer.id = some ⟨customer.id, sc.stripeCustomerId, true⟩
  paying : customer.customerType = .prospect ∨ customer.customerType = .customer

def LevelFollows (s : Customer × Option SubscriptionStatus) : Prop :=
  ∀ status ∈ s.2, (status.isLimited → s.1.serviceLevel = .limited) ∧
    (status = .trialing ∨ status = .active → s.1.serviceLevel = .fullService)

/-- A customer that was activated before is not limited when it is active again. -/
def NotLimited (s : Customer × Option SubscriptionStatus) (status : SubscriptionStatus) : Prop :=
  status = .active → s.1.customerType = .customer → s.1.serviceLevel = .fullService

variable {stripe sc subscription}

lemma PaysThroughStripe.follow {s : Customer × Option SubscriptionStatus}
    (h : PaysThroughStripe stripe sc subscription s.1) (status : SubscriptionStatus) :
    PaysThroughStripe stripe sc subscription (follow stripe sc subscription s status).1 ∧
    (LevelFollows (Site.follow stripe sc subscription s status) ↔ NotLimited s status) := by
  obtain ⟨⟨id, type, level⟩, last⟩ := s
  rcases h with ⟨hins, hsub, hrec, rfl | rfl⟩
  -- a prospect is activated by the first payment; a customer only if its level is full already
  all_goals
    refine ⟨⟨hins, hsub, ?_, ?_⟩, ?_⟩
    all_goals
      cases status <;> simp_all [Site.follow, handleSubscriptionStatus, maybeActivateCustomer,
        Customer.setType,
        Customer.setServiceLevel, LevelFollows, NotLimited, SubscriptionStatus.isLimited, Except.map]

variable (stripe sc subscription) in
/-- The level follows the subscription exactly as long as no limited customer pays again. -/
theorem level_follows_iff (customer : Customer) (h : PaysThroughStripe stripe sc subscription customer)
    (statuses : List SubscriptionStatus) :
    (∀ s ∈ trace (follow stripe sc subscription) (customer, none) statuses, LevelFollows s) ↔
    Guarded (follow stripe sc subscription) NotLimited (customer, none) statuses := by
  apply forall_trace_iff_guarded fun s => PaysThroughStripe stripe sc subscription s.1 ∧ LevelFollows s
  · intro s status hinv hgua
    exact ⟨(hinv.1.follow status).1, (hinv.1.follow status).2.2 hgua⟩
  · exact fun s hinv => hinv.2
  · exact fun s status hinv hfol => (hinv.1.follow status).2.1 hfol
  · exact ⟨h, by simp [LevelFollows]⟩

theorem limited_after_payment :
    (run (follow (fun _ => some ⟨"c", "s", true⟩) ⟨"s", false⟩ ⟨"sub", "s", .active⟩) (⟨"c", .customer, .fullService⟩, none)
    [.pastDue, .active]).1.serviceLevel = .limited := rfl

theorem level_follows_payments :
    (run (follow (fun _ => some ⟨"c", "s", true⟩) ⟨"s", false⟩ ⟨"sub", "s", .active⟩)
    (⟨"c", .prospect, .limited⟩, none) [.trialing, .active, .pastDue]).1.serviceLevel = .limited :=
  ((level_follows_iff _ _ _ _ ⟨rfl, rfl, rfl, .inl rfl⟩ [.trialing, .active, .pastDue]).2
    ⟨by simp [NotLimited], fun _ h => absurd h (by decide), by simp [NotLimited], trivial⟩ _
    (run_mem_trace _ _) .pastDue rfl).1 (by simp [SubscriptionStatus.isLimited])

end Toolchain.Site
