import SearchRelay.Main
import SearchRelay.Proofs.BaseUrl
import SearchRelay.Proofs.Header.Laws
import SearchRelay.Proofs.Indexer.Echo
import SearchRelay.Proofs.Indexer.Indexes
import SearchRelay.Proofs.Options.Given
import SearchRelay.Proofs.Options.Server
import SearchRelay.Proofs.Relay.Broken
import SearchRelay.Proofs.Relay.Reopened
import SearchRelay.Proofs.Relay.Selection
import SearchRelay.Proofs.Report
import SearchRelay.Proofs.Unforwarded
import SearchRelay.Proofs.Validator
