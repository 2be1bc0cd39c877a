import SiteFilter.Main
import SiteFilter.Page.Applier
import SiteFilter.Proofs.Channel.Asking
import SiteFilter.Proofs.Channel.Sessions
import SiteFilter.Proofs.CommandLine.ExitCode
import SiteFilter.Proofs.FileTree.Sparing
import SiteFilter.Proofs.FileTree.Writers
import SiteFilter.Proofs.FilterList.Reading
import SiteFilter.Proofs.FilterList.UrlPattern
import SiteFilter.Proofs.KeyedStorage.Faults
import SiteFilter.Proofs.Page.OwnPages
import SiteFilter.Proofs.Propagation.Contents
import SiteFilter.Proofs.Propagation.Independence
import SiteFilter.Proofs.Rule.Grammar
import SiteFilter.Proofs.Rule.HostName
import SiteFilter.Proofs.Rule.LineByLine
import SiteFilter.Proofs.Settings.Keeping
import SiteFilter.Proofs.Store.Durability
import SiteFilter.Proofs.Store.EffectOrder
import SiteFilter.Proofs.Store.Importing
import SiteFilter.Proofs.Store.Interleavings
import SiteFilter.Proofs.Store.OrderedSets
import SiteFilter.Proofs.Store.ReloadIndependence
import SiteFilter.Proofs.Store.RuleText
import SiteFilter.Proofs.Store.Salvaging
import SiteFilter.Proofs.Store.SinkConsistency
import SiteFilter.Proofs.Store.SourceKinds
