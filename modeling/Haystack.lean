import Haystack.Codecs.JsonLevels
import Haystack.Codecs.SubscriptionWireExact
import Haystack.Graph.Sequential
import Haystack.Graph.RecoveryExact
import Haystack.App.MutationDuplicate
import Haystack.App.HistoryDuplicate
import Haystack.App.SanitizeSound
import Haystack.App.FeedPages
import Haystack.App.SubscriptionRegistry
import Haystack.App.CommandFence
import Haystack.App.LifecycleRuns
import Haystack.Server.AuthSafety
import Haystack.Server.Enumeration
import Haystack.Xeto.ActivationSound
import Haystack.Xeto.Resolver
import Haystack.Xeto.Versions
import Haystack.Ontology.Conjuncts
import Haystack.Ontology.Specs
